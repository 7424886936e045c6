import StudyC.Router.Shutdown

/-!
# The way out of Router

How far `main` and the worker are from their ends, once an event that ends the loop of `main` is on
its way. Every step of theirs brings them nearer. The worker leaves only if there is such an event,
or has been.
-/

open Runs

namespace StudyC.Router

/-! ## The way out of `main` -/

/-- The events that end the loop of `main`. -/
def Event.isStop : Event → Bool
  | .fatal => true
  | .signal sig => decide (sig = sigInt ∨ sig = sigTerm)
  | .quit | .udp | .ipc => false

/-- An event that ends the loop is in the queue, or `main` has handled one. Before it has purged the
notification queue, `main` has no other thread that could send it one. -/
def StopRequested (s : State) : Prop :=
  match s.main with
  | .purge => False
  | .setup | .createWorker | .setupMgmt | .wait => s.mainq.any Event.isStop = true
  | .loop => s.keepRunning = false ∨ s.mainq.any Event.isStop = true
  | _ => True

/-- The events before the first that ends the loop. -/
def eventsLeft (s : State) : Nat := s.mainq.findIdx Event.isStop

def mainRank (s : State) : Nat :=
  match s.main with
  | .purge => 0
  | .setup => 12 + 2 * eventsLeft s
  | .createWorker => 11 + 2 * eventsLeft s
  | .setupMgmt => 10 + 2 * eventsLeft s
  | .loop => if s.keepRunning then 9 + 2 * eventsLeft s else 5
  | .wait => 8 + 2 * eventsLeft s
  | .quitSignal => 7
  | .closeSignal | .closeFatal => 6
  | .closePost => 4
  | .quitPost | .quitSetup => 3
  | .joinMgmt | .closeSetup => 2
  | .joinWorker => 1
  | .exited => 0

theorem mainReceive_stop {s s' : State} (hs : mainReceive s = some s') :
    ∃ e es, s.mainq = e :: es ∧
      (e.isStop = true ∧ (s'.main = .quitSignal ∨ s'.main = .closeFatal) ∨
        e.isStop = false ∧ s' = { s with mainq := es, main := .loop }) := by
  unfold mainReceive at hs
  split at hs
  · simp at hs
  · rename_i sig es hq
    refine ⟨_, es, hq, ?_⟩
    split at hs
    · rename_i hsig
      obtain rfl := Option.some.inj hs
      exact Or.inl ⟨by simpa [Event.isStop] using hsig, Or.inl rfl⟩
    · rename_i hsig
      obtain rfl := Option.some.inj hs
      exact Or.inr ⟨by simpa [Event.isStop] using hsig, rfl⟩
  · rename_i es hq
    obtain rfl := Option.some.inj hs
    exact ⟨_, es, hq, Or.inl ⟨rfl, Or.inr rfl⟩⟩
  all_goals
    rename_i es hq
    obtain rfl := Option.some.inj hs
    exact ⟨_, es, hq, Or.inr ⟨rfl, rfl⟩⟩

theorem mainReceive_rank {s s' : State} (hm : s.main = .wait)
    (hstop : s.mainq.any Event.isStop = true) (hs : mainReceive s = some s') :
    StopRequested s' ∧ mainRank s' < mainRank s := by
  obtain ⟨e, es, hq, ⟨-, hm' | hm'⟩ | ⟨he, rfl⟩⟩ := mainReceive_stop hs
  · simp only [StopRequested, mainRank, hm, hm', true_and]
    omega
  · simp only [StopRequested, mainRank, hm, hm', true_and]
    omega
  · have hstop' : es.any Event.isStop = true := by simpa [hq, he] using hstop
    have hleft : s.mainq.findIdx Event.isStop = es.findIdx Event.isStop + 1 := by
      rw [hq, List.findIdx_cons, he, cond_false]
    simp only [StopRequested, mainRank, eventsLeft, hm, hleft, hstop', or_true, true_and]
    split <;> omega

theorem mainStep_rank {N : Nat} {s s' : State} {res : Result} (hflag : Stopping s)
    (hstop : StopRequested s) (hs : mainStep N s res = some s') :
    StopRequested s' ∧ mainRank s' < mainRank s := by
  cases hm : s.main with
  | purge => simp [StopRequested, hm] at hstop
  | wait =>
    cases res <;> simp only [mainStep, hm, reduceCtorEq] at hs
    · exact mainReceive_rank hm (by simpa [StopRequested, hm] using hstop) hs
    · obtain rfl := Option.some.inj hs
      simp only [StopRequested, mainRank, hm, true_and]
      omega
  | loop =>
    cases res <;> simp only [mainStep, hm, reduceCtorEq] at hs
    obtain rfl := Option.some.inj hs
    simp only [StopRequested, hm] at hstop
    cases hk : s.keepRunning with
    | false => simp [StopRequested, mainRank, hm, hk]
    | true => simpa [StopRequested, mainRank, hm, hk, eventsLeft] using hstop
  | closeSignal | closeFatal =>
    cases res <;> simp only [mainStep, hm, reduceCtorEq] at hs
    have hk : s.keepRunning = false := hflag (by simp [hm])
    obtain rfl := Option.some.inj hs
    simp [StopRequested, mainRank, hm, hk]
  | setup | createWorker | setupMgmt =>
    simp only [StopRequested, hm] at hstop
    cases res <;> simp only [mainStep, hm, reduceCtorEq] at hs
    all_goals
      obtain rfl := Option.some.inj hs
      simp only [StopRequested, mainRank, hm, hstop, eventsLeft]
      grind
  | quitSetup | quitSignal | quitPost =>
    cases res <;> simp only [mainStep, sendQuit, hm, reduceCtorEq] at hs
    all_goals repeat' split at hs
    all_goals first
      | (simp at hs; done)
      | (obtain rfl := Option.some.inj hs; simp [StopRequested, mainRank, hm])
  | closeSetup | closePost | joinMgmt | joinWorker | exited =>
    cases res <;> simp only [mainStep, hm, reduceCtorEq] at hs
    all_goals repeat' split at hs
    all_goals first
      | (simp at hs; done)
      | (obtain rfl := Option.some.inj hs; simp [StopRequested, mainRank, hm])

theorem MainKept.rank {s s' : State} (h : MainKept s s') (hstop : StopRequested s) :
    StopRequested s' ∧ mainRank s' = mainRank s := by
  obtain ⟨hm, hk, hq | ⟨e, hq⟩⟩ := h
  · simpa [StopRequested, mainRank, eventsLeft, hm, hk, hq] using hstop
  · have hleft : s.mainq.any Event.isStop = true → eventsLeft s' = eventsLeft s := by
      intro hany
      rw [eventsLeft, hq, List.findIdx_append, if_pos (by simpa using hany), eventsLeft]
    unfold StopRequested at hstop ⊢
    unfold mainRank
    rw [hm, hk, hq, List.any_append]
    cases hm : s.main <;> simp only [hm] at hstop ⊢
    all_goals grind

/-! ## The way out of the worker -/

/-- The messages up to the last QUIT. -/
def lastQuit : List Notify → Nat
  | [] => 0
  | m :: q => if .quit ∈ m :: q then lastQuit q + 1 else 0

theorem lastQuit_eq_zero {q : List Notify} (h : .quit ∉ q) : lastQuit q = 0 := by
  cases q with
  | nil => rfl
  | cons m q => exact if_neg h

theorem lastQuit_cons_le (m : Notify) (q : List Notify) : lastQuit q ≤ lastQuit (m :: q) := by
  by_cases h : .quit ∈ m :: q
  · simp [lastQuit, h]
  · simp [lastQuit_eq_zero h, lastQuit_eq_zero fun hq => h (.tail m hq)]

theorem lastQuit_cons_lt {m : Notify} {q : List Notify} (h : .quit ∈ m :: q) :
    lastQuit q < lastQuit (m :: q) := by
  simp [lastQuit, h]

theorem lastQuit_append_data (q : List Notify) : lastQuit (q ++ [.data]) = lastQuit q := by
  induction q with
  | nil => rfl
  | cons m q ih => simp [lastQuit, ih]

/-- `q` bounds the messages that the worker still takes. -/
def workerRank (q : Nat) : WorkerPhase → Nat
  | .notCreated | .terminated => 0
  | .leaving => 1
  | .atMsgrcv => 2 + 3 * q
  | .sending => 3 + 3 * q
  | .reading => 4 + 3 * q
  | .retryWait i => 2 + 3 * q + 2 * (connectMaxRetries - i)
  | .connecting i => 3 + 3 * q + 2 * (connectMaxRetries - i)
  | .starting => 4 + 3 * q + 2 * connectMaxRetries

theorem workerRank_mono {q q' : Nat} (h : q' ≤ q) (w : WorkerPhase) :
    workerRank q' w ≤ workerRank q w := by
  cases w <;> simp only [workerRank] <;> omega

theorem workerRank_pos (q : Nat) {w : WorkerPhase} (hnot : w ≠ .notCreated)
    (hterm : w ≠ .terminated) : 0 < workerRank q w := by
  cases w with
  | notCreated => exact absurd rfl hnot
  | terminated => exact absurd rfl hterm
  | _ => simp only [workerRank]; omega

theorem retry_rank {s : State} {i : Nat} (hw : s.worker = .retryWait i) (f : List Notify → Nat) :
    workerRank (f (retry s i).queue) (retry s i).worker < workerRank (f s.queue) s.worker := by
  unfold retry
  split
  · simp only [workerRank, hw]
    omega
  · simp only [workerRank, hw]
    omega

theorem workerStep_rank {s s' : State} {res : Result} (f : List Notify → Nat)
    (hf : s.worker = .atMsgrcv → ∀ m q, s.queue = m :: q → f q < f s.queue)
    (hres : s.worker = .atMsgrcv → res ≠ .fail) (hs : workerStep s res = some s') :
    workerRank (f s'.queue) s'.worker < workerRank (f s.queue) s.worker := by
  -- every step of the worker brings it nearer to its end, by a measure of the queue that falls
  -- with the message it takes, unless `msgrcv` fails
  cases hw : s.worker with
  | notCreated | terminated => cases res <;> simp only [workerStep, hw, reduceCtorEq] at hs
  | starting | connecting i | reading | sending | leaving =>
    cases res <;> simp only [workerStep, hw, reduceCtorEq] at hs
    all_goals
      obtain rfl := Option.some.inj hs
      simp only [workerRank]
      omega
  | retryWait i =>
    rw [← hw]
    cases res <;> simp only [workerStep, hw] at hs
    · split at hs
      · simp at hs
      · obtain rfl := Option.some.inj hs
        simp only [workerRank, hw]
        omega
    · obtain rfl := Option.some.inj hs
      exact retry_rank hw f
    · split at hs
      · obtain rfl := Option.some.inj hs
        exact retry_rank hw f
      · simp at hs
  | atMsgrcv =>
    cases res <;> simp only [workerStep, hw, reduceCtorEq] at hs
    · repeat' split at hs
      · simp at hs
      · obtain rfl := Option.some.inj hs
        simp only [workerRank]
        omega
      · rename_i q hq
        obtain rfl := Option.some.inj hs
        have := hf hw _ q hq
        simp only [workerRank]
        omega
      · simp at hs
    · exact absurd rfl (hres hw)

theorem OutsideEffect.lastQuit_le {N : Nat} {s s' : State} {a : Action}
    (h : OutsideEffect N s a s') : lastQuit s'.queue ≤ lastQuit s.queue := by
  rcases h.2 with hq | ⟨-, -, x, hq⟩ | ⟨-, -, -, hq⟩
  · exact Nat.le_of_eq (by rw [hq])
  · rw [hq]
    exact lastQuit_cons_le x s'.queue
  · exact Nat.le_of_eq (by rw [hq, lastQuit_append_data])

theorem workerStep_queue {s s' : State} {res : Result} (hs : workerStep s res = some s') :
    s'.queue.length ≤ s.queue.length := by
  unfold workerStep retry at hs
  repeat' split at hs
  all_goals first
    | (simp at hs; done)
    | (obtain rfl := Option.some.inj hs; simp [*])

theorem exists_workerStep {s : State} (hipc : s.ipcMsqid = true) (hnot : s.worker ≠ .notCreated)
    (hterm : s.worker ≠ .terminated) (hq : s.worker = .atMsgrcv → s.queue ≠ []) :
    ∃ res, (s.worker = .atMsgrcv → res ≠ .fail) ∧ (workerStep s res).isSome = true := by
  -- inside the process the worker waits for nothing but a message
  unfold workerStep
  cases hw : s.worker with
  | notCreated => exact absurd hw hnot
  | terminated => exact absurd hw hterm
  | atMsgrcv =>
    obtain ⟨m, q, hq⟩ := List.exists_cons_of_ne_nil (hq hw)
    exact ⟨.ok, by simp, by cases m <;> simp [hq, hipc]⟩
  | retryWait i => exact ⟨.fail, by simp, rfl⟩
  | _ => exact ⟨.ok, by simp, rfl⟩

/-! ## The worker leaves only for a stop -/

theorem stopRequested_of_any {s : State} (hm : s.main ≠ .purge)
    (h : s.mainq.any Event.isStop = true) : StopRequested s := by
  unfold StopRequested
  cases hmain : s.main with
  | purge => exact absurd hmain hm
  | loop => exact Or.inr h
  | setup | createWorker | setupMgmt | wait => exact h
  | _ => trivial

def Left (w : WorkerPhase) : Prop := w = .leaving ∨ w = .terminated

theorem workerStep_left {s s' : State} {res : Result} (hs : workerStep s res = some s')
    (hleft : Left s'.worker) :
    Left s.worker ∨ s.pipeOpen = false ∨ .quit ∈ s.queue ∨ s'.mainq.any Event.isStop = true := by
  -- a worker leaves with an event for `main`, with a QUIT, or because the pipe is closed
  unfold Left at hleft ⊢
  cases hw : s.worker with
  | notCreated | terminated => cases res <;> simp only [workerStep, hw, reduceCtorEq] at hs
  | leaving => simp
  | starting | connecting i | reading | sending =>
    cases res <;> simp only [workerStep, hw, reduceCtorEq] at hs
    all_goals
      obtain rfl := Option.some.inj hs
      first
        | (simp at hleft; done)
        | simp [Event.isStop]
  | retryWait i =>
    cases res <;> simp only [workerStep, hw, retry] at hs
    all_goals repeat' split at hs
    all_goals first
      | (simp at hs; done)
      | (obtain rfl := Option.some.inj hs; simp_all [Event.isStop])
  | atMsgrcv =>
    cases res <;> simp only [workerStep, hw, reduceCtorEq] at hs
    · repeat' split at hs
      · simp at hs
      · rename_i q hq
        simp [hq]
      · obtain rfl := Option.some.inj hs
        simp at hleft
      · simp at hs
    · obtain rfl := Option.some.inj hs
      simp [hw] at hleft

/-- What ends the worker comes from `main`, or goes to it. -/
structure StopInv (s : State) : Prop where
  shape : Shape s
  ipc : s.ipcMsqid = true
  created : s.worker = .notCreated → Early s.main ∨ s.main = .exited
  flag : s.main = .quitPost ∨ s.main = .joinMgmt → s.keepRunning = false
  worker : Left s.worker → StopRequested s
  pipe : s.pipeOpen = false → StopRequested s
  -- what earlier lifetimes left goes in the purge
  quit : s.main ≠ .purge → .quit ∈ s.queue → StopRequested s

theorem init_stopInv (q : List Notify) (c : CollectorPhase) : StopInv (init q c true) :=
  ⟨init_shape q c true,
  rfl, by simp [init, Early], by simp [init], by simp [init, Left], by simp [init], by simp [init]⟩

theorem mainStep_before {N : Nat} {s s' : State} {res : Result} (hipc : s.ipcMsqid = true)
    (hnot : ¬ StopRequested s) (hs : mainStep N s res = some s') :
    s'.pipeOpen = s.pipeOpen ∧ (s'.worker = s.worker ∨ s'.worker = .starting) ∧
      (s'.main ≠ .purge → .quit ∈ s'.queue → s.main ≠ .purge ∧ .quit ∈ s.queue) := by
  -- before the stop `main` sends no QUIT, leaves the pipe open and only creates the worker
  cases hm : s.main with
  | purge =>
    cases res <;> simp only [mainStep, hm, hipc, if_true, reduceCtorEq] at hs
    split at hs
    · rename_i hq
      obtain rfl := Option.some.inj hs
      simp [hq]
    · obtain rfl := Option.some.inj hs
      simp
  | setup | createWorker | setupMgmt | loop =>
    cases res <;> simp only [mainStep, hm, reduceCtorEq] at hs
    all_goals
      obtain rfl := Option.some.inj hs
      simp
  | wait =>
    cases res <;> simp only [mainStep, hm, reduceCtorEq] at hs
    · obtain ⟨e, es, hq, ⟨he, -⟩ | ⟨-, rfl⟩⟩ := mainReceive_stop hs
      · exact absurd (stopRequested_of_any (by simp [hm]) (by simp [hq, he])) hnot
      · simp
    · obtain rfl := Option.some.inj hs
      simp
  | _ => simp [StopRequested, hm] at hnot

theorem mainStep_created {N : Nat} {s s' : State} {res : Result} (h : StopInv s)
    (hs : mainStep N s res = some s') :
    (s'.worker = .notCreated → Early s'.main ∨ s'.main = .exited) ∧
      (s'.main = .quitPost ∨ s'.main = .joinMgmt → s'.keepRunning = false) := by
  have hcreated := h.created
  have hflag := h.flag
  unfold Early at hcreated ⊢
  cases hm : s.main with
  | wait =>
    simp only [hm, reduceCtorEq, or_self, imp_false] at hcreated
    cases res <;> simp only [mainStep, hm, reduceCtorEq] at hs
    · obtain ⟨-, -, hw, -⟩ := mainReceive_cases hm hs
      obtain ⟨e, es, -, ⟨-, hm' | hm'⟩ | ⟨-, rfl⟩⟩ := mainReceive_stop hs
      · simp [hw, hcreated, hm']
      · simp [hw, hcreated, hm']
      · simp [hcreated]
    · obtain rfl := Option.some.inj hs
      simp [hcreated]
  | _ =>
    cases res <;> simp only [mainStep, sendQuit, hm, reduceCtorEq] at hs
    all_goals repeat' split at hs
    all_goals first
      | (simp at hs; done)
      | (obtain rfl := Option.some.inj hs; simp_all)

theorem step_pipeOpen {N : Nat} {s s' : State} {a : Action} (ha : ∀ res, a ≠ .main res)
    (hs : step N s a = some s') : s'.pipeOpen = s.pipeOpen := by
  cases a with
  | main res => exact absurd rfl (ha res)
  | _ =>
    simp only [step, workerStep, retry] at hs
    repeat' split at hs
    all_goals first
      | (simp at hs; done)
      | (obtain rfl := Option.some.inj hs; rfl)

theorem aside_stopInv {N : Nat} {s s' : State} {a : Action} (h : StopInv s)
    (ha : ∀ res, a ≠ .main res) (hkept : MainKept s s')
    (hcreated : s'.worker = .notCreated → s.worker = .notCreated)
    (hleft : Left s'.worker → StopRequested s') (hs : step N s a = some s') : StopInv s' := by
  have hkeep := fun hstop => (hkept.rank hstop).1
  refine ⟨step_shape h.shape hs, (step_ipcMsqid hs).trans h.ipc, ?_, ?_, hleft, ?_, ?_⟩
  · rw [hkept.main]
    exact h.created ∘ hcreated
  · rw [hkept.main, hkept.keepRunning]
    exact h.flag
  · rw [step_pipeOpen ha hs]
    exact hkeep ∘ h.pipe
  · rw [hkept.main]
    intro hm hquit
    refine hkeep (h.quit hm ?_)
    rcases (step_aside ha hs).queue with hq | ⟨x, hq⟩ | hq
    · rwa [← hq]
    · rw [hq]
      exact .tail x hquit
    · simpa [hq] using hquit

theorem workerStep_stopInv {N : Nat} {s s' : State} {res : Result} (h : StopInv s)
    (hs : step N s (.worker res) = some s') : StopInv s' := by
  obtain ⟨hkept, hw⟩ := workerStep_effect hs
  have hrun : s.worker ≠ .notCreated := by
    intro hnone
    cases res <;> simp [step, workerStep, hnone] at hs
  have hm : s.main ≠ .purge := fun hm => hrun (h.shape.early (Or.inl hm))
  have hkeep := fun hstop => (hkept.rank hstop).1
  refine aside_stopInv h (by simp) hkept ?_ ?_ hs
  · intro hnone
    rcases hw with ⟨-, ha, -⟩ | ⟨-, hleave⟩ | ⟨-, hterm, -⟩
    · rw [hnone] at ha
      cases ha
    · simp [hnone] at hleave
    · simp [hnone] at hterm
  · intro hleft
    rcases workerStep_left hs hleft with hleft | hpipe | hquit | hany
    · exact hkeep (h.worker hleft)
    · exact hkeep (h.pipe hpipe)
    · exact hkeep (h.quit hm hquit)
    · exact stopRequested_of_any (by rwa [hkept.main]) hany

theorem mainStep_stopInv {N : Nat} {s s' : State} {res : Result} (h : StopInv s)
    (hs : step N s (.main res) = some s') : StopInv s' := by
  obtain ⟨hcreated, hflag⟩ := mainStep_created h hs
  have hshape := step_shape h.shape hs
  have hipc := (step_ipcMsqid hs).trans h.ipc
  by_cases hstop : StopRequested s
  · have hstop' := (mainStep_rank h.shape.stopping hstop hs).1
    exact ⟨hshape, hipc, hcreated, hflag, fun _ => hstop', fun _ => hstop', fun _ _ => hstop'⟩
  · obtain ⟨hpipe, hworker, hquit⟩ := mainStep_before h.ipc hstop hs
    refine ⟨hshape, hipc, hcreated, hflag, fun hleft => ?_, fun hp => ?_, fun hm hq => ?_⟩
    · rcases hworker with hworker | hworker
      · exact absurd (h.worker (hworker ▸ hleft)) hstop
      · simp [Left, hworker] at hleft
    · exact absurd (h.pipe (hpipe ▸ hp)) hstop
    · obtain ⟨hm, hq⟩ := hquit hm hq
      exact absurd (h.quit hm hq) hstop

theorem step_stopInv {N : Nat} (s : State) (a : Action) (s' : State) (h : StopInv s)
    (hs : step N s a = some s') : StopInv s' := by
  cases a with
  | main res => exact mainStep_stopInv h hs
  | worker res => exact workerStep_stopInv h hs
  | _ =>
    obtain ⟨res, ha, -⟩ | ⟨res, ha, -⟩ | ⟨hkept, hw, -⟩ := step_effect hs
    · cases ha
    · cases ha
    · refine aside_stopInv h (by simp) hkept (by rw [hw]; exact id) ?_ hs
      rw [hw]
      exact fun hleft => (hkept.rank (h.worker hleft)).1

end StudyC.Router
