import StudyC.Router.System

/-!
# Router shutdown

Main leaves in two ways, with one QUIT or with two, and then waits for the worker. What it still
has to send is counted by `quitsDue`, and both shutdown properties are invariants over that count.
-/

open Runs

namespace StudyC.Router

/-! ## The QUITs that main still has to send -/

/-- Of the events in the queue, the first that ends the loop is a fatal one. -/
def endsByFatal : List Event → Bool
  | [] => false
  | .fatal :: _ => true
  | .signal sig :: es => if sig = sigInt ∨ sig = sigTerm then false else endsByFatal es
  | .quit :: es | .udp :: es | .ipc :: es => endsByFatal es

/-- A signal ends the loop with a QUIT of its own, a fatal event does not. Both are followed by the
QUIT after the loop. -/
def quitsDue (s : State) : Nat :=
  match s.main with
  | .purge | .setup | .createWorker | .setupMgmt | .quitSignal => 2
  | .loop => if s.keepRunning ∧ endsByFatal s.mainq = false then 2 else 1
  | .wait => if endsByFatal s.mainq then 1 else 2
  | .quitSetup | .closeSignal | .closeFatal | .closePost | .quitPost => 1
  | .closeSetup | .joinMgmt | .joinWorker | .exited => 0

def Early (m : MainPhase) : Prop := m = .purge ∨ m = .setup ∨ m = .createWorker

instance (m : MainPhase) : Decidable (Early m) := inferInstanceAs (Decidable (_ ∨ _))

theorem endsByFatal_append (es : List Event) (e : Event) (h : endsByFatal es = true) :
    endsByFatal (es ++ [e]) = true := by
  induction es with
  | nil => cases h
  | cons e' es ih =>
    cases e' with
    | fatal => rfl
    | signal sig =>
      simp only [endsByFatal, List.cons_append] at h ⊢
      split at h
      · simp at h
      · rename_i hsig
        rw [if_neg hsig]
        exact ih h
    | quit | udp | ipc => exact ih h

/-- Main stays where it is, with at most one more event in its queue. -/
structure MainKept (s s' : State) : Prop where
  main : s'.main = s.main
  keepRunning : s'.keepRunning = s.keepRunning
  mainq : s'.mainq = s.mainq ∨ ∃ e, s'.mainq = s.mainq ++ [e]

theorem MainKept.quitsDue {s s' : State} (h : MainKept s s') :
    quitsDue s' ≤ quitsDue s ∧ (0 < quitsDue s → 0 < quitsDue s') := by
  -- a new event never adds a QUIT, and never takes the last one away
  obtain ⟨hm, hk, hq | ⟨e, hq⟩⟩ := h
  · simp [Router.quitsDue, hm, hk, hq]
  · have happ := endsByFatal_append s.mainq e
    unfold Router.quitsDue
    rw [hm, hk, hq]
    cases s.main <;> simp only <;> grind

/-! ## What a step can do -/

/-- The worker and the queue stay, and main still has a QUIT to send if it had one. -/
def Quiet (s s' : State) : Prop :=
  s'.worker = s.worker ∧ s'.queue = s.queue ∧ quitsDue s' ≤ quitsDue s ∧
    (0 < quitsDue s → 0 < quitsDue s')

def Quits (N : Nat) (s s' : State) : Prop :=
  s'.worker = s.worker ∧ s.queue.length < N ∧ s'.queue = s.queue ++ [.quit] ∧
    quitsDue s = quitsDue s' + 1

def SendingQuit (m : MainPhase) : Prop := m = .quitSetup ∨ m = .quitSignal ∨ m = .quitPost

instance : DecidablePred SendingQuit := fun _ => inferInstanceAs (Decidable (_ ∨ _ ∨ _))

/-- The `msgsnd` of a QUIT fails, and main goes on without it. -/
def Skips (s : State) (res : Result) (s' : State) : Prop :=
  res = .fail ∧ SendingQuit s.main ∧ s'.worker = s.worker ∧ s'.queue = s.queue ∧
    quitsDue s = quitsDue s' + 1

/-- Once main has handled the event that ends the loop, the flag is down. -/
def Stopping (s : State) : Prop :=
  s.main = .quitSignal ∨ s.main = .closeSignal ∨ s.main = .closeFatal → s.keepRunning = false

theorem mainReceive_cases {s s' : State} (hm : s.main = .wait) (hs : mainReceive s = some s') :
    Stopping s' ∧ ¬ Early s'.main ∧ Quiet s s' := by
  unfold mainReceive at hs
  split at hs
  · simp at hs
  · rename_i sig es hq
    split at hs
    · rename_i hsig
      obtain rfl := Option.some.inj hs
      simp [Stopping, Quiet, quitsDue, hm, hq, endsByFatal, hsig, Early]
    · rename_i hsig
      obtain rfl := Option.some.inj hs
      simp only [Stopping, Quiet, quitsDue, hm, hq, endsByFatal, hsig, Early]
      grind
  · rename_i es hq
    obtain rfl := Option.some.inj hs
    simp [Stopping, Quiet, quitsDue, hm, hq, endsByFatal, Early]
  all_goals
    rename_i es hq
    obtain rfl := Option.some.inj hs
    simp only [Stopping, Quiet, quitsDue, hm, hq, endsByFatal, Early]
    grind

def MainEffect (N : Nat) (s : State) (res : Result) (s' : State) : Prop :=
  (Early s.main ∧
    (s'.worker = s.worker ∨ s'.worker = .starting ∧ ¬ Early s'.main ∧ 0 < quitsDue s')) ∨
  (¬ Early s.main ∧ ¬ Early s'.main ∧ (Quiet s s' ∨ Quits N s s' ∨ Skips s res s'))

theorem sendQuit_effect {N : Nat} {s s' : State} {next : MainPhase} {res : Result}
    (hstop : Stopping s) (hs : sendQuit N s next res = some s')
    (hnext : s.main = .quitSetup ∧ next = .closeSetup ∨ s.main = .quitSignal ∧ next = .closeSignal ∨
      s.main = .quitPost ∧ next = .joinMgmt) :
    Stopping s' ∧ MainEffect N s res s' := by
  unfold Stopping at hstop
  cases res with
  | ok =>
    simp only [sendQuit, Option.ite_none_right_eq_some, Option.some.injEq] at hs
    obtain ⟨⟨-, hlt⟩, rfl⟩ := hs
    rcases hnext with ⟨hm, rfl⟩ | ⟨hm, rfl⟩ | ⟨hm, rfl⟩ <;>
      simp [Stopping, MainEffect, Early, Quiet, Quits, quitsDue, hm, hlt, hstop]
  | fail =>
    obtain rfl := Option.some.inj hs
    rcases hnext with ⟨hm, rfl⟩ | ⟨hm, rfl⟩ | ⟨hm, rfl⟩ <;>
      simp [Stopping, MainEffect, Early, Quiet, Skips, SendingQuit, quitsDue, hm, hstop]
  | timeout => simp [sendQuit] at hs

theorem mainStep_effect {N : Nat} {s s' : State} {res : Result} (hstop : Stopping s)
    (hs : mainStep N s res = some s') : Stopping s' ∧ MainEffect N s res s' := by
  cases hm : s.main with
  | purge =>
    cases res <;> simp only [mainStep, hm, reduceCtorEq] at hs
    repeat' split at hs
    all_goals
      obtain rfl := Option.some.inj hs
      simp [Stopping, MainEffect, Early, hm]
  | setup | createWorker =>
    cases res <;> simp only [mainStep, hm, reduceCtorEq] at hs
    all_goals
      obtain rfl := Option.some.inj hs
      simp [Stopping, MainEffect, Early, quitsDue, hm]
  | quitSetup =>
    simp only [mainStep, hm] at hs
    exact sendQuit_effect hstop hs (Or.inl ⟨hm, rfl⟩)
  | quitSignal =>
    simp only [mainStep, hm] at hs
    exact sendQuit_effect hstop hs (Or.inr (Or.inl ⟨hm, rfl⟩))
  | quitPost =>
    simp only [mainStep, hm] at hs
    exact sendQuit_effect hstop hs (Or.inr (Or.inr ⟨hm, rfl⟩))
  | setupMgmt | closeSetup | closePost | loop =>
    cases res <;> simp only [mainStep, hm, reduceCtorEq] at hs
    all_goals
      obtain rfl := Option.some.inj hs
      simp only [Stopping, MainEffect, Early, Quiet, quitsDue, hm]
      grind
  | closeSignal | closeFatal =>
    cases res <;> simp only [mainStep, hm, reduceCtorEq] at hs
    -- The flag is down, so the loop is over and one QUIT is left.
    have hk : s.keepRunning = false := hstop (by simp [hm])
    obtain rfl := Option.some.inj hs
    simp [Stopping, MainEffect, Early, Quiet, quitsDue, hm, hk]
  | wait =>
    cases res <;> simp only [mainStep, hm, reduceCtorEq] at hs
    · obtain ⟨hstop', he, hquiet⟩ := mainReceive_cases hm hs
      exact ⟨hstop', Or.inr ⟨by simp [Early, hm], he, Or.inl hquiet⟩⟩
    · obtain rfl := Option.some.inj hs
      simp only [Stopping, MainEffect, Early, Quiet, quitsDue, hm]
      grind
  | joinMgmt | joinWorker =>
    cases res <;> simp only [mainStep, hm, reduceCtorEq] at hs
    split at hs
    all_goals first
      | cases hs; done
      | (obtain rfl := Option.some.inj hs; simp [Stopping, MainEffect, Early, Quiet, quitsDue, hm])
  | exited => cases res <;> simp only [mainStep, hm, reduceCtorEq] at hs

theorem MainKept.stopping {s s' : State} (h : MainKept s s') (hstop : Stopping s) :
    Stopping s' := by
  unfold Stopping at hstop ⊢
  rw [h.main, h.keepRunning]
  exact hstop

/-- The worker exists and may still wait for a message. -/
def Alive : WorkerPhase → Prop
  | .starting | .connecting _ | .retryWait _ | .atMsgrcv | .reading | .sending => True
  | .notCreated | .leaving | .terminated => False

instance : DecidablePred Alive
  | .starting | .connecting _ | .retryWait _ | .atMsgrcv | .reading | .sending => .isTrue trivial
  | .notCreated | .leaving | .terminated => .isFalse id

/-- A live worker takes at most one message, which is a QUIT only if it leaves with it. -/
def WorkerEffect (s s' : State) : Prop :=
  (Alive s.worker ∧ Alive s'.worker ∧ (s'.queue = s.queue ∨ s.queue = .data :: s'.queue)) ∨
  (Alive s.worker ∧ s'.worker = .leaving) ∨
  (s.worker = .leaving ∧ s'.worker = .terminated ∧ s'.queue = s.queue)

theorem retry_effect (s : State) (i : Nat) (ha : Alive s.worker) :
    MainKept s (retry s i) ∧ WorkerEffect s (retry s i) := by
  unfold retry
  split
  · exact ⟨⟨rfl, rfl, Or.inl rfl⟩, Or.inl ⟨ha, trivial, Or.inl rfl⟩⟩
  · exact ⟨⟨rfl, rfl, Or.inr ⟨_, rfl⟩⟩, Or.inr (Or.inl ⟨ha, rfl⟩)⟩

theorem workerStep_effect {s s' : State} {res : Result} (hs : workerStep s res = some s') :
    MainKept s s' ∧ WorkerEffect s s' := by
  cases hw : s.worker with
  | notCreated | terminated => cases res <;> simp only [workerStep, hw, reduceCtorEq] at hs
  | starting | connecting i | reading | sending =>
    cases res <;> simp only [workerStep, hw, reduceCtorEq] at hs
    all_goals
      obtain rfl := Option.some.inj hs
      refine ⟨⟨rfl, rfl, ?_⟩, ?_⟩
      · simp
      · simp [WorkerEffect, hw, Alive]
  | retryWait i =>
    have ha : Alive s.worker := by rw [hw]; trivial
    cases res <;> simp only [workerStep, hw] at hs
    · split at hs
      · simp at hs
      · obtain rfl := Option.some.inj hs
        exact ⟨⟨rfl, rfl, Or.inl rfl⟩, Or.inr (Or.inl ⟨ha, rfl⟩)⟩
    · obtain rfl := Option.some.inj hs
      exact retry_effect s i ha
    · split at hs
      · obtain rfl := Option.some.inj hs
        exact retry_effect s i ha
      · simp at hs
  | atMsgrcv =>
    cases res <;> simp only [workerStep, hw, reduceCtorEq] at hs
    all_goals repeat' split at hs
    all_goals first
      | (simp at hs; done)
      | (obtain rfl := Option.some.inj hs
         exact ⟨⟨rfl, rfl, Or.inl rfl⟩, by simp [WorkerEffect, Alive, *]⟩)
  | leaving =>
    cases res <;> simp only [workerStep, hw, reduceCtorEq] at hs
    obtain rfl := Option.some.inj hs
    exact ⟨⟨rfl, rfl, Or.inl rfl⟩, by simp [WorkerEffect, hw]⟩

/-- The Collector and the other threads of Router leave the worker alone. A message goes in a purge,
or comes with a notification that finds room. -/
def OutsideEffect (N : Nat) (s : State) (a : Action) (s' : State) : Prop :=
  s'.worker = s.worker ∧
  (s'.queue = s.queue ∨
    (a = .collectorPurge ∧ s.collector = .purging ∧ ∃ x, s.queue = x :: s'.queue) ∨
    (a = .collectorNotify ∧ s.collector = .running ∧ s.queue.length < N ∧
      s'.queue = s.queue ++ [.data]))

theorem step_effect {N : Nat} {s s' : State} {a : Action} (hs : step N s a = some s') :
    (∃ res, a = .main res ∧ mainStep N s res = some s') ∨
    (∃ res, a = .worker res ∧ MainKept s s' ∧ WorkerEffect s s') ∨
    (MainKept s s' ∧ OutsideEffect N s a s') := by
  cases a with
  | main res => exact Or.inl ⟨res, rfl, hs⟩
  | worker res => exact Or.inr (Or.inl ⟨res, rfl, workerStep_effect hs⟩)
  | collectorStart =>
    simp only [step] at hs
    split at hs
    · obtain rfl := Option.some.inj hs
      exact Or.inr (Or.inr ⟨⟨rfl, rfl, Or.inl rfl⟩, rfl, Or.inl rfl⟩)
    · simp at hs
  | collectorPurge =>
    simp only [step] at hs
    split at hs
    · rename_i hc
      split at hs
      · obtain rfl := Option.some.inj hs
        exact Or.inr (Or.inr ⟨⟨rfl, rfl, Or.inl rfl⟩, rfl, Or.inl rfl⟩)
      · rename_i x q hq
        obtain rfl := Option.some.inj hs
        exact Or.inr (Or.inr ⟨⟨rfl, rfl, Or.inl rfl⟩, rfl, Or.inr (Or.inl ⟨rfl, hc, x, hq⟩)⟩)
    · simp at hs
  | collectorNotify =>
    simp only [step] at hs
    split at hs
    · rename_i hc
      split at hs
      · rename_i hlt
        obtain rfl := Option.some.inj hs
        exact Or.inr (Or.inr ⟨⟨rfl, rfl, Or.inl rfl⟩, rfl, Or.inr (Or.inr ⟨rfl, hc, hlt, rfl⟩)⟩)
      · obtain rfl := Option.some.inj hs
        exact Or.inr (Or.inr ⟨⟨rfl, rfl, Or.inl rfl⟩, rfl, Or.inl rfl⟩)
    · simp at hs
  | collectorStop | mgmtEnd =>
    obtain rfl := Option.some.inj hs
    exact Or.inr (Or.inr ⟨⟨rfl, rfl, Or.inl rfl⟩, rfl, Or.inl rfl⟩)
  | signal sig | mgmtShutdown =>
    simp only [step, Option.ite_none_right_eq_some, Option.some.injEq] at hs
    obtain ⟨-, rfl⟩ := hs
    exact Or.inr (Or.inr ⟨⟨rfl, rfl, Or.inr ⟨_, rfl⟩⟩, rfl, Or.inl rfl⟩)

structure Shape (s : State) : Prop where
  stopping : Stopping s
  early : Early s.main → s.worker = .notCreated

theorem init_shape (q : List Notify) (c : CollectorPhase) (ok : Bool) : Shape (init q c ok) :=
  ⟨by simp [Stopping, init], fun _ => rfl⟩

theorem step_shape {N : Nat} {s s' : State} {a : Action} (h : Shape s) (hs : step N s a = some s') :
    Shape s' := by
  rcases step_effect hs with ⟨res, rfl, hmain⟩ | ⟨res, rfl, hkept, hw⟩ | ⟨hkept, hworker, -⟩
  · obtain ⟨hstop, heff⟩ := mainStep_effect h.stopping hmain
    refine ⟨hstop, fun he => ?_⟩
    rcases heff with ⟨he0, hw | ⟨-, hne, -⟩⟩ | ⟨-, hne, -⟩
    · rw [hw]; exact h.early he0
    · exact absurd he hne
    · exact absurd he hne
  · refine ⟨hkept.stopping h.stopping, fun he => ?_⟩
    have hnot := h.early (hkept.main ▸ he)
    rcases hw with ⟨ha, -⟩ | ⟨ha, -⟩ | ⟨hl, -⟩
    · rw [hnot] at ha; cases ha
    · rw [hnot] at ha; cases ha
    · rw [hnot] at hl; simp at hl
  · refine ⟨hkept.stopping h.stopping, fun he => ?_⟩
    rw [hworker]
    exact h.early (hkept.main ▸ he)

/-! ## A QUIT for a worker that waits -/

/-- A QUIT goes in a purge, or is not sent because `msgsnd` fails, only if another is in the queue,
or main has another to send, or the worker needs none. -/
def QuitKept (s : State) : Action → Prop
  | .collectorPurge => s.collector = .purging → s.queue.head? = some .quit →
      .quit ∈ s.queue.tail ∨ 0 < quitsDue s ∨ ¬ Alive s.worker
  | .main .fail => SendingQuit s.main → .quit ∈ s.queue ∨ 1 < quitsDue s ∨ ¬ Alive s.worker
  | _ => True

/-- A live worker that main sends nothing more to has its QUIT in the queue. -/
structure QuitInv (s : State) : Prop where
  shape : Shape s
  quit : Alive s.worker → quitsDue s = 0 → .quit ∈ s.queue

theorem step_quitInv {N : Nat} (s : State) (a : Action) (s' : State) (h : QuitInv s)
    (hkeep : QuitKept s a) (hs : step N s a = some s') : QuitInv s' := by
  refine ⟨step_shape h.shape hs, fun halive hdue => ?_⟩
  rcases step_effect hs with ⟨res, rfl, hmain⟩ | ⟨res, rfl, hkept, hw⟩ | ⟨hkept, hworker, hq⟩
  · rcases (mainStep_effect h.shape.stopping hmain).2 with
        ⟨he, hw | ⟨-, -, hpos⟩⟩ | ⟨-, -, hquiet | hquits | hskips⟩
    · rw [hw, h.shape.early he] at halive
      cases halive
    · omega
    · obtain ⟨hw, hq, -, hpos⟩ := hquiet
      rw [hq]
      exact h.quit (hw ▸ halive) (by omega)
    · obtain ⟨-, -, hq, -⟩ := hquits
      simp [hq]
    · obtain ⟨rfl, hsend, hw, hq, hlast⟩ := hskips
      rw [hq]
      rcases hkeep hsend with hmem | hmore | hdead
      · exact hmem
      · omega
      · exact absurd (hw ▸ halive) hdead
  · have hdue0 : quitsDue s = 0 := by have := hkept.quitsDue.2; omega
    rcases hw with ⟨ha, -, hq | hq⟩ | ⟨-, hleave⟩ | ⟨-, hterm, -⟩
    · rw [hq]; exact h.quit ha hdue0
    · have hmem := h.quit ha hdue0
      rw [hq] at hmem
      simpa using hmem
    · rw [hleave] at halive; cases halive
    · rw [hterm] at halive; cases halive
  · have hdue0 : quitsDue s = 0 := by have := hkept.quitsDue.2; omega
    rw [hworker] at halive
    have hmem := h.quit halive hdue0
    rcases hq with hq | ⟨rfl, hc, x, hq⟩ | ⟨-, -, -, hq⟩
    · rw [hq]; exact hmem
    · -- A purge: the QUIT is behind the message taken, or the condition says so.
      rw [hq] at hmem
      rcases List.mem_cons.mp hmem with rfl | hmem
      · rcases hkeep hc (by rw [hq]; rfl) with hmem | hpos | hdead
        · rwa [hq] at hmem
        · omega
        · exact absurd halive hdead
      · exact hmem
    · rw [hq]
      exact List.mem_append_left _ hmem

/-- While no purge takes the last QUIT that the worker needs, and no failing `msgsnd` keeps it back,
main and the worker are never left waiting for one that is gone. -/
theorem worker_gets_its_quit (N : Nat) (q : List Notify) (c : CollectorPhase) (ok : Bool)
    (as : List Action) (s : State) (hkeep : Along (step N) QuitKept (init q c ok) as)
    (hrun : exec (step N) (init q c ok) as = some s) :
    s.main = .joinWorker → s.worker = .atMsgrcv → .quit ∈ s.queue := by
  intro hm hw
  have hinv : QuitInv s := by
    refine invariant step_quitInv ⟨init_shape q c ok, fun ha => ?_⟩ hkeep hrun
    cases ha
  apply hinv.quit
  · rw [hw]; trivial
  · simp [quitsDue, hm]

instance (s : State) : DecidablePred (QuitKept s)
  | .collectorPurge => inferInstanceAs (Decidable (_ → _ → _))
  | .main .fail => inferInstanceAs (Decidable (_ → _))
  | .main .ok | .main .timeout | .worker _ | .collectorStart | .collectorNotify | .collectorStop
  | .signal _ | .mgmtShutdown | .mgmtEnd => .isTrue trivial

/-- SIGTERM comes while the worker relays a message, and main goes as far as the join. -/
def busyShutdown : List Action :=
  [.main .ok, .main .ok, .main .ok, .worker .ok, .worker .ok, .main .ok, .collectorNotify,
    .worker .ok, .collectorStop, .signal sigTerm] ++ List.replicate 7 (.main .ok) ++
    [.mgmtEnd, .main .ok]

/-- A Collector starts before the worker is back at its `msgrcv`, and purges both QUITs. -/
theorem purge_takes_the_quits :
    ∃ s, exec (step 16) (init [] .running true)
        (busyShutdown ++ [.collectorStart, .collectorPurge, .collectorPurge, .worker .ok,
          .worker .ok]) = some s ∧
      s.main = .joinWorker ∧ s.worker = .atMsgrcv ∧ .quit ∉ s.queue :=
  ⟨_, rfl, by decide, by decide, by decide⟩

theorem busyShutdown_ends_with_quit :
    ∃ s, exec (step 16) (init [] .running true) (busyShutdown ++ [.worker .ok, .worker .ok]) =
      some s ∧
      s.main = .joinWorker ∧ s.worker = .atMsgrcv ∧ .quit ∈ s.queue :=
  ⟨_, rfl, rfl, rfl,
    worker_gets_its_quit 16 [] .running true (busyShutdown ++ [.worker .ok, .worker .ok]) _
    (by decide) rfl
    rfl rfl⟩

/-! ## Room for the QUITs after the worker has gone -/

/-- The worker leaves, and a Collector notifies after that, only if the QUITs still fit. -/
def RoomKept (N : Nat) (s : State) : Action → Prop
  | .worker _ => s.worker = .leaving → s.queue.length + quitsDue s ≤ N
  | .collectorNotify => s.collector = .running → s.worker = .terminated → s.queue.length < N →
      s.queue.length + 1 + quitsDue s ≤ N
  | _ => True

structure RoomInv (N : Nat) (s : State) : Prop where
  shape : Shape s
  room : s.worker = .terminated → s.queue.length + quitsDue s ≤ N

theorem step_roomInv {N : Nat} (s : State) (a : Action) (s' : State) (h : RoomInv N s)
    (hkeep : RoomKept N s a) (hs : step N s a = some s') : RoomInv N s' := by
  refine ⟨step_shape h.shape hs, fun hterm => ?_⟩
  rcases step_effect hs with ⟨res, rfl, hmain⟩ | ⟨res, rfl, hkept, hw⟩ | ⟨hkept, hworker, hq⟩
  · rcases (mainStep_effect h.shape.stopping hmain).2 with
        ⟨he, hw | ⟨hw, -⟩⟩ | ⟨-, -, hquiet | hquits | hskips⟩
    · rw [hw, h.shape.early he] at hterm
      simp at hterm
    · rw [hw] at hterm
      simp at hterm
    · obtain ⟨hw, hq, hle, -⟩ := hquiet
      have := h.room (hw ▸ hterm)
      rw [hq]
      omega
    · obtain ⟨hw, -, hq, hdue⟩ := hquits
      have := h.room (hw ▸ hterm)
      rw [hq, List.length_append, List.length_singleton]
      omega
    · obtain ⟨-, -, hw, hq, hdue⟩ := hskips
      have := h.room (hw ▸ hterm)
      rw [hq]
      omega
  · have hle := hkept.quitsDue.1
    rcases hw with ⟨-, ha, -⟩ | ⟨-, hleave⟩ | ⟨hleave, -, hq⟩
    · rw [hterm] at ha; cases ha
    · rw [hterm] at hleave; simp at hleave
    · have := hkeep hleave
      rw [hq]
      omega
  · have hle := hkept.quitsDue.1
    have hroom := h.room (hworker ▸ hterm)
    rcases hq with hq | ⟨-, -, x, hq⟩ | ⟨rfl, hc, hlt, hq⟩
    · rw [hq]; omega
    · rw [hq, List.length_cons] at hroom
      omega
    · have := hkeep hc (hworker ▸ hterm) hlt
      rw [hq, List.length_append, List.length_singleton]
      omega

/-- While the queue keeps room for the QUITs once the worker has gone, main is never stuck in
`send_shm_quit`. -/
theorem main_never_stuck (N : Nat) (q : List Notify) (c : CollectorPhase) (ok : Bool)
    (as : List Action) (s : State) (hkeep : Along (step N) (RoomKept N) (init q c ok) as)
    (hrun : exec (step N) (init q c ok) as = some s) :
    ¬ (s.worker = .terminated ∧ N ≤ s.queue.length ∧ SendingQuit s.main) := by
  rintro ⟨hterm, hfull, hsend⟩
  have hinv : RoomInv N s := by
    refine invariant step_roomInv ⟨init_shape q c ok, fun ht => ?_⟩ hkeep hrun
    cases ht
  have hroom := hinv.room hterm
  have hdue : 0 < quitsDue s := by
    rcases hsend with hm | hm | hm <;> simp [quitsDue, hm]
  omega

instance (N : Nat) (s : State) : DecidablePred (RoomKept N s)
  | .worker _ => inferInstanceAs (Decidable (_ → _))
  | .collectorNotify => inferInstanceAs (Decidable (_ → _ → _ → _))
  | .main _ | .collectorStart | .collectorPurge | .collectorStop | .signal _ | .mgmtShutdown
  | .mgmtEnd => .isTrue trivial

/-- Two notifications come while no Viewer answers. The worker gives up after its last attempt, and
main goes as far as the QUIT after the loop. -/
def viewerAbsent : List Action :=
  [.main .ok, .main .ok, .main .ok, .main .ok, .worker .ok, .collectorNotify, .collectorNotify] ++
    (List.replicate 5 [.worker .fail, .worker .timeout]).flatten ++ [.worker .ok] ++
    List.replicate 5 (.main .ok)

theorem full_queue_blocks_main :
    ∃ s, exec (step 2) (init [] .running true) viewerAbsent = some s ∧
      s.worker = .terminated ∧ 2 ≤ s.queue.length ∧ SendingQuit s.main :=
  ⟨_, rfl, by decide, by decide, Or.inr (Or.inr rfl)⟩

theorem roomy_queue_lets_main_go :
    ∃ s, exec (step 3) (init [] .running true) viewerAbsent = some s ∧ SendingQuit s.main ∧
      ¬ (s.worker = .terminated ∧ 3 ≤ s.queue.length ∧ SendingQuit s.main) :=
  ⟨_, rfl, Or.inr (Or.inr rfl), main_never_stuck 3 [] .running true viewerAbsent _ (by decide) rfl⟩

end StudyC.Router
