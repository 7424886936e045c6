import StudyC.Common.Accounting
import StudyC.Lib.AtomicObject
import StudyC.Lib.Refinement

/-!
# The logger under several threads

`Logger` takes a call as one step. Here the threads of a process share one open logger, number `h`,
and their calls interleave access by access. A call writes to the context with the lock held, but
the logging functions compare `min_level` before they take it. As long as no change of the level
overtakes such a comparison, every run is one of the atomic object whose operations are the calls of
`Logger`.
-/

open CString Runs

namespace StudyC.Common.Concurrent

open AtomicObject (Status)

variable {T : Type} [DecidableEq T] {h : Nat} {gDefault : UlogHandle}

/-! ## Calls -/

deriving instance DecidableEq for Env

inductive Op where
  | call (env : Env) (call : Call)
  | ulogGetLevel
  | ulogStats
  deriving DecidableEq

inductive Returned where
  /-- Nothing, or the 0 of a call that cannot fail on an open logger. -/
  | done
  | level (level : UlogLevel)
  | stats (stats : Stats)
  deriving DecidableEq

/-- A call on the logger, all at once. -/
def apply (h : Nat) (p : Process) : Op → Process × Returned
  | .call env call => ((Common.step p (env, call)).getD p, .done)
  | .ulogGetLevel => (p, .level ((ulogGetLevel p (some h)).getD .info))
  | .ulogStats => (p, .stats ((ulogStats p (some h)).getD ⟨-1, none, none⟩))

structure Message where
  env : Env
  level : UlogLevel
  file : Option CStr
  line : Int
  func : Option CStr
  text : CStr
  deriving DecidableEq

inductive Body where
  | filtered (m : Message)
  | output (m : Message)
  | setLevel (level : UlogLevel)
  | getLevel
  | stats
  | statsReset
  | setContextTag (tag : Option CStr)
  deriving DecidableEq

def on (h : Nat) (logger : UlogHandle) (body : Body) : Option Body :=
  if logger = some h then some body else none

/-- What a call does to the logger `h`. The calls that open or close a logger are none of them. -/
def Op.body (h : Nat) (gDefault : UlogHandle) : Op → Option Body
  | .call env (.ulogTrace logger text) => on h logger (.filtered ⟨env, .trace, none, 0, none, text⟩)
  | .call env (.ulogDebug logger text) => on h logger (.filtered ⟨env, .debug, none, 0, none, text⟩)
  | .call env (.ulogInfo logger text) => on h logger (.filtered ⟨env, .info, none, 0, none, text⟩)
  | .call env (.ulogWarn logger text) => on h logger (.filtered ⟨env, .warn, none, 0, none, text⟩)
  | .call env (.ulogError logger text) => on h logger (.filtered ⟨env, .error, none, 0, none, text⟩)
  | .call env (.ulogFatal logger text) => on h logger (.output ⟨env, .fatal, none, 0, none, text⟩)
  | .call env (.ulogLog logger level text) =>
    on h logger (.filtered ⟨env, level, none, 0, none, text⟩)
  | .call env (.ulogLogAt logger level file line func text) =>
    on h logger (.filtered ⟨env, level, file, line, func, text⟩)
  | .call env (.logInfo text) => on h gDefault (.output ⟨env, .info, none, 0, none, text⟩)
  | .call env (.logWarn text) => on h gDefault (.output ⟨env, .warn, none, 0, none, text⟩)
  | .call env (.logErr text) => on h gDefault (.output ⟨env, .error, none, 0, none, text⟩)
  | .call _ (.ulogSetLevel logger level) => on h logger (.setLevel level)
  | .call _ (.ulogStatsReset logger) => on h logger .statsReset
  | .call _ (.ulogSetContextTag logger tag) => on h logger (.setContextTag tag)
  | .call _ (.ulogInit ..) | .call _ (.ulogClose _) | .call _ (.logInit _) | .call _ .logClose =>
    none
  | .ulogGetLevel => some .getLevel
  | .ulogStats => some .stats

/-- A call on the logger `h`, or on the default logger if that is `h`. -/
structure Running (h : Nat) (gDefault : UlogHandle) where
  op : Op
  body : Body
  ofOp : op.body h gDefault = some body

/-! ## Accesses -/

/-- What a call does with the lock held. The counters are incremented by a load and a store. -/
inductive Access where
  | format (m : Message)
  | syslog (level : UlogLevel)
  | file
  | loadTotal
  | storeTotal
  | loadDropped
  | storeDropped
  | addDropped
  | copyDropped
  | clearTotal
  | clearDropped
  | storeLevel (level : UlogLevel)
  | loadLevel
  | storeTag (tag : Option CStr)
  deriving DecidableEq

/-- The local variables of a call, and what it stores through its pointers. -/
structure Locals where
  message : Pieces
  count : UInt64
  level : UlogLevel
  totalLogs : UInt64
  droppedLogs : UInt64

def Locals.fresh : Locals := ⟨[], 0, .info, 0, 0⟩

def Access.run (h : Nat) (c : UlogContext) (p : Process) (got : Locals) : Access → Process × Locals
  | .format m => (p, { got with message := pieces c m.env m.level m.file m.line m.func m.text })
  | .syslog level => ({ p with
      syslog := if c.syslogEnabled then
          p.syslog ++ [⟨h, p.openlogIdent, ulogLevelToSyslogPriority level, got.message⟩]
        else p.syslog }, got)
  | .file =>
    ({ p with file := if c.fileEnabled && c.filePtr then p.file ++ [got.message] else p.file }, got)
  | .loadTotal => (p, { got with count := c.totalMessages })
  | .storeTotal => (p.put h { c with totalMessages := got.count + 1 }, got)
  | .loadDropped => (p, { got with count := c.droppedMessages })
  | .storeDropped => (p.put h { c with droppedMessages := got.count + 1 }, got)
  | .addDropped => (p, { got with totalLogs := got.count + c.droppedMessages })
  | .copyDropped => (p, { got with droppedLogs := c.droppedMessages })
  | .clearTotal => (p.put h { c with totalMessages := 0 }, got)
  | .clearDropped => (p.put h { c with droppedMessages := 0 }, got)
  | .storeLevel level => (p.put h { c with minLevel := level }, got)
  | .loadLevel => (p, { got with level := c.minLevel })
  | .storeTag tag => ((ulogSetContextTag p (some h) tag).getD p, got)

def perform (h : Nat) (s : Process × Locals) (a : Access) : Option (Process × Locals) :=
  (s.1.context h).map fun c => a.run h c s.1 s.2

def ulogOutputAccesses (m : Message) : List Access :=
  [.format m, .syslog m.level, .file, .loadTotal, .storeTotal]

/-- The accesses of a call that finds `minLevel` before it takes the lock. -/
def plan (minLevel : UlogLevel) : Body → List Access
  | .filtered m =>
    if minLevel > m.level then [.loadDropped, .storeDropped] else ulogOutputAccesses m
  | .output m => ulogOutputAccesses m
  | .setLevel level => [.storeLevel level]
  | .getLevel => [.loadLevel]
  | .stats => [.loadTotal, .addDropped, .copyDropped]
  | .statsReset => [.clearTotal, .clearDropped]
  | .setContextTag tag => [.storeTag tag]

def Body.returned (got : Locals) : Body → Returned
  | .getLevel => .level got.level
  | .stats => .stats ⟨0, some got.totalLogs, some got.droppedLogs⟩
  | _ => .done

/-! ## Threads -/

inductive Phase (h : Nat) (gDefault : UlogHandle) where
  | idle
  | entered (r : Running h gDefault)
  /-- `min_level` has been compared, where it is, and the lock is asked for. -/
  | waiting (r : Running h gDefault) (todo : List Access)
  | critical (r : Running h gDefault) (todo : List Access) (got : Locals)

structure State (T : Type) (h : Nat) (gDefault : UlogHandle) where
  process : Process
  lock : Option T
  phase : T → Phase h gDefault

def State.setPhase (s : State T h gDefault) (u : T) (ph : Phase h gDefault) : State T h gDefault :=
  { s with phase := Function.update s.phase u ph }

def init (p : Process) : State T h p.gDefaultLogger := ⟨p, none, fun _ => .idle⟩

inductive Action (T : Type) (h : Nat) (gDefault : UlogHandle) where
  | call (u : T) (r : Running h gDefault)
  | test (u : T)
  | lock (u : T)
  | access (u : T)
  | unlock (u : T)

def step (s : State T h gDefault) : Action T h gDefault → Option (State T h gDefault)
  | .call u r => match s.phase u with
    | .idle => some (s.setPhase u (.entered r))
    | _ => none
  | .test u => match s.phase u with
    | .entered r =>
      (s.process.context h).map fun c => s.setPhase u (.waiting r (plan c.minLevel r.body))
    | _ => none
  | .lock u => match s.phase u, s.lock with
    | .waiting r todo, none => some { s.setPhase u (.critical r todo .fresh) with lock := some u }
    | _, _ => none
  | .access u => match s.phase u with
    | .critical r (a :: todo) got => (perform h (s.process, got) a).map fun o =>
      { s.setPhase u (.critical r todo o.2) with process := o.1 }
    | _ => none
  | .unlock u => match s.phase u with
    | .critical _ [] _ => some { s.setPhase u .idle with lock := none }
    | _ => none

/-- What a caller sees of a step. A call takes effect as it returns. -/
def label (s : State T h gDefault) : Action T h gDefault → List (AtomicObject.Event T Op Returned)
  | .call u r => [.invoke u r.op]
  | .unlock u => match s.phase u with
    | .critical r [] got => [.perform u, .respond u (r.body.returned got)]
    | _ => []
  | _ => []

def Phase.Stands (level : UlogLevel) : Phase h gDefault → Prop
  | .waiting r todo => todo = plan level r.body
  | _ => True

/-- The level that a thread stores next. -/
def Phase.storing : Phase h gDefault → Option UlogLevel
  | .critical _ (.storeLevel level :: _) _ => some level
  | _ => none

/-- The level is stored only when every thread that waits for the lock has found `min_level` on the
same side of its own level. -/
def DecisionsStand (s : State T h gDefault) : Action T h gDefault → Prop
  | .access u => ∀ level ∈ (s.phase u).storing, ∀ v, (s.phase v).Stands level
  | _ => True

/-! ## One call alone -/

section
variable {p p' : Process} {got got' : Locals} {c : UlogContext} {a : Access} {body : Body}

def Access.level (minLevel : UlogLevel) : Access → UlogLevel
  | .storeLevel level => level
  | _ => minLevel

theorem perform_spec (hc : p.context h = some c) (hs : perform h (p, got) a = some (p', got')) :
    p'.gDefaultLogger = p.gDefaultLogger ∧ ∃ d, p'.context h = some d ∧
      d.minLevel = a.level c.minLevel := by
  simp only [perform, hc, Option.map_some, Option.some.injEq] at hs
  cases a with
  | format | syslog | file | loadTotal | loadDropped | addDropped | copyDropped | loadLevel =>
    obtain ⟨rfl, -⟩ := Prod.mk.inj hs
    exact ⟨rfl, c, hc, rfl⟩
  | storeTag tag =>
    obtain ⟨rfl, -⟩ := Prod.mk.inj hs
    simp only [ulogSetContextTag, update, hc, Option.map_some, Option.getD_some]
    exact ⟨rfl, _, (context_put hc _ h).trans (if_pos rfl), rfl⟩
  | storeTotal | storeDropped | clearTotal | clearDropped | storeLevel =>
    obtain ⟨rfl, -⟩ := Prod.mk.inj hs
    exact ⟨rfl, _, (context_put hc _ h).trans (if_pos rfl), rfl⟩

/-- A body, all at once. -/
def Body.apply (h : Nat) (p : Process) : Body → Option (Process × Returned)
  | .filtered m =>
    (Common.filtered p m.env (some h) m.level m.file m.line m.func m.text).map (·, .done)
  | .output m => (ulogOutput p m.env (some h) m.level m.file m.line m.func m.text).map (·, .done)
  | .setLevel level => (ulogSetLevel p (some h) level).map (·, .done)
  | .getLevel => (ulogGetLevel p (some h)).map (p, .level ·)
  | .stats => (ulogStats p (some h)).map (p, .stats ·)
  | .statsReset => (ulogStatsReset p (some h)).map (·, .done)
  | .setContextTag tag => (ulogSetContextTag p (some h) tag).map (·, .done)

theorem on_eq_some {logger : UlogHandle} {b : Body} (hon : on h logger b = some body) :
    logger = some h ∧ b = body := by
  unfold on at hon
  split at hon
  · exact ⟨by assumption, Option.some.inj hon⟩
  · simp at hon

theorem apply_of_body {op : Op} {o : Process × Returned}
    (hbody : op.body h p.gDefaultLogger = some body) (ho : body.apply h p = some o) :
    apply h p op = o := by
  cases op with
  | ulogGetLevel =>
    obtain rfl := Option.some.inj hbody
    obtain ⟨level, hlevel, rfl⟩ := Option.map_eq_some_iff.mp ho
    simp [apply, hlevel]
  | ulogStats =>
    obtain rfl := Option.some.inj hbody
    obtain ⟨stats, hstats, rfl⟩ := Option.map_eq_some_iff.mp ho
    simp [apply, hstats]
  | call env call =>
    suffices hstep : ∃ p', Common.step p (env, call) = some p' ∧ o = (p', .done) by
      obtain ⟨p', hp', rfl⟩ := hstep
      simp [apply, hp']
    cases call with
    | ulogInit | ulogClose | logInit | logClose => simp [Op.body] at hbody
    | logInfo text | logWarn text | logErr text =>
      obtain ⟨hdefault, rfl⟩ := on_eq_some hbody
      obtain ⟨p', hp', rfl⟩ := Option.map_eq_some_iff.mp ho
      refine ⟨p', ?_, rfl⟩
      simp only [Common.step, logInfo, logWarn, logErr, legacy, logInit_of_default hdefault,
        hdefault]
      exact hp'
    | _ =>
      obtain ⟨rfl, rfl⟩ := on_eq_some hbody
      obtain ⟨p', hp', rfl⟩ := Option.map_eq_some_iff.mp ho
      exact ⟨p', hp', rfl⟩

theorem exec_access {s : Process × Locals} (hc : s.1.context h = some c) (a : Access)
    (todo : List Access) :
    exec (perform h) s (a :: todo) = exec (perform h) (a.run h c s.1 s.2) todo := by
  simp [exec, perform, hc]

theorem exec_output (hc : p.context h = some c) (m : Message) :
    ∃ q got, exec (perform h) (p, .fresh) (ulogOutputAccesses m) = some (q, got) ∧
      ulogOutput p m.env (some h) m.level m.file m.line m.func m.text = some q := by
  simp only [ulogOutput, hc, Option.map_some]
  -- the first four accesses leave the context as it was, which is all that `hc` looks at
  let message := pieces c m.env m.level m.file m.line m.func m.text
  refine ⟨_, { Locals.fresh with message, count := c.totalMessages }, ?_, rfl⟩
  rw [ulogOutputAccesses, exec_access (by exact hc), exec_access (by exact hc),
    exec_access (by exact hc), exec_access (by exact hc), exec_access (by exact hc)]
  rfl

theorem exec_plan (hc : p.context h = some c) (body : Body) :
    ∃ q got, exec (perform h) (p, .fresh) (plan c.minLevel body) = some (q, got) ∧
      body.apply h p = some (q, body.returned got) := by
  cases body with
  | filtered m =>
    simp only [plan, Body.apply, Common.filtered, hc, Option.bind_some]
    split
    · exact ⟨_, _, (exec_access hc ..).trans (exec_access hc ..), rfl⟩
    · obtain ⟨q, got, hrun, hout⟩ := exec_output hc m
      exact ⟨q, got, hrun, by rw [hout]; rfl⟩
  | output m =>
    obtain ⟨q, got, hrun, hout⟩ := exec_output hc m
    exact ⟨q, got, hrun, by rw [Body.apply, hout]; rfl⟩
  | setLevel level =>
    exact ⟨_, _, exec_access hc .., by simp only [Body.apply, ulogSetLevel, update, hc]; rfl⟩
  | getLevel => exact ⟨_, _, exec_access hc .., by simp only [Body.apply, ulogGetLevel, hc]; rfl⟩
  | stats =>
    refine ⟨_, _, (exec_access hc ..).trans ((exec_access hc ..).trans (exec_access hc ..)), ?_⟩
    simp only [Body.apply, ulogStats, hc]
    rfl
  | statsReset =>
    have hcleared : (p.put h { c with totalMessages := 0 }).context h =
        some { c with totalMessages := 0 } :=
      (context_put hc _ h).trans (if_pos rfl)
    refine ⟨_, _, (exec_access hc ..).trans (exec_access hcleared ..), ?_⟩
    simp only [Body.apply, ulogStatsReset, update, hc, Access.run, Process.put, List.set_set]
    rfl
  | setContextTag tag =>
    exact ⟨_, _, exec_access hc .., by simp only [Body.apply, ulogSetContextTag, update, hc]; rfl⟩

end

/-! ## The relation -/

def statusOf : Phase h gDefault → Status Op Returned
  | .idle => .idle
  | .entered r | .waiting r _ | .critical r _ _ => .invoked r.op

/-- How the process of a thread inside the lock comes about from the one of the atomic object. -/
def Doing (h : Nat) (obj p : Process) (body : Body) (todo : List Access) (got : Locals) : Prop :=
  ∃ c pre, obj.context h = some c ∧ plan c.minLevel body = pre ++ todo ∧
    exec (perform h) (obj, .fresh) pre = some (p, got)

structure Refines (s : State T h gDefault) (t : AtomicObject.State T Process Op Returned) :
    Prop where
  proc : t.proc = statusOf ∘ s.phase
  default : t.obj.gDefaultLogger = gDefault
  decided : ∃ c, s.process.context h = some c ∧ ∀ u, (s.phase u).Stands c.minLevel
  inside : ∀ u r todo got, s.phase u = .critical r todo got →
    s.lock = some u ∧ Doing h t.obj s.process r.body todo got
  outside : s.lock = none → t.obj = s.process

variable {s s' : State T h gDefault} {t : AtomicObject.State T Process Op Returned} {u : T}
  {r : Running h gDefault} {todo : List Access} {got : Locals} {obj p : Process} {body : Body}

omit [DecidableEq T] in
theorem init_refines {c : UlogContext} (hc : p.context h = some c) :
    Refines (init p : State T h p.gDefaultLogger) (AtomicObject.init p) :=
  ⟨rfl, rfl, ⟨c, hc, fun _ => trivial⟩, fun u r todo got hu => by simp [init] at hu, fun _ => rfl⟩

omit [DecidableEq T] in
theorem Refines.invoked (h : Refines s t) (hu : s.phase u = .critical r todo got) :
    t.proc u = .invoked r.op := by
  rw [h.proc, Function.comp_apply, hu]
  rfl

theorem status_update (hproc : t.proc = statusOf ∘ s.phase) (u : T) (ph : Phase h gDefault) :
    Function.update t.proc u (statusOf ph) = statusOf ∘ Function.update s.phase u ph := by
  rw [hproc]
  exact (Function.comp_update _ _ _ _).symm

theorem status_stays (hproc : t.proc = statusOf ∘ s.phase) {ph : Phase h gDefault}
    (hph : statusOf (s.phase u) = statusOf ph) :
    t.proc = statusOf ∘ Function.update s.phase u ph := by
  rw [← status_update hproc, ← hph, hproc, ← Function.comp_apply (f := statusOf),
    Function.update_eq_self]

theorem Doing.start {c : UlogContext} (hc : p.context h = some c) :
    Doing h p p body (plan c.minLevel body) .fresh :=
  ⟨c, [], hc, rfl, rfl⟩

theorem Doing.next {a : Access} {o : Process × Locals} (hdoing : Doing h obj p body (a :: todo) got)
    (ho : perform h (p, got) a = some o) : Doing h obj o.1 body todo o.2 := by
  obtain ⟨c, pre, hc, hsplit, hrun⟩ := hdoing
  refine ⟨c, pre ++ [a], hc, by simp [hsplit], ?_⟩
  rw [exec_append, hrun]
  simp [exec, ho]

theorem Doing.default (hdoing : Doing h obj p body todo got) :
    p.gDefaultLogger = obj.gDefaultLogger := by
  obtain ⟨-, pre, -, -, hrun⟩ := hdoing
  refine Reachable.invariant (I := fun o : Process × Locals => o.1.gDefaultLogger =
    obj.gDefaultLogger) rfl ?_
    ⟨pre, hrun⟩
  intro o a o' ho hs
  obtain ⟨c, hc, -⟩ := Option.map_eq_some_iff.mp hs
  exact (perform_spec hc hs).1.trans ho

theorem Doing.apply_eq (hdoing : Doing h obj p r.body [] got)
    (hdefault : obj.gDefaultLogger = gDefault) : apply h obj r.op = (p, r.body.returned got) := by
  obtain ⟨c, pre, hc, hsplit, hrun⟩ := hdoing
  obtain ⟨q, got', hplan, hbody⟩ := exec_plan hc r.body
  rw [hsplit, List.append_nil, hrun] at hplan
  obtain ⟨rfl, rfl⟩ := Prod.mk.inj (Option.some.inj hplan)
  exact apply_of_body (hdefault ▸ r.ofOp) hbody

/-! ## One step -/

theorem Refines.outer (hrel : Refines s t) {ph : Phase h gDefault} {proc : T → Status Op Returned}
    (hproc : proc = statusOf ∘ Function.update s.phase u ph)
    (hph : ∀ r todo got, ph ≠ .critical r todo got)
    (hstands : ∀ c, s.process.context h = some c → ph.Stands c.minLevel) :
    Refines (s.setPhase u ph) ⟨t.obj, proc⟩ := by
  obtain ⟨c, hc, hall⟩ := hrel.decided
  refine ⟨hproc, hrel.default, ⟨c, hc, ?_⟩, ?_, hrel.outside⟩
  · exact (Function.forall_update_iff _ _).mpr ⟨hstands c hc, fun v _ => hall v⟩
  · intro v r todo got hv
    simp only [State.setPhase, Function.update_apply] at hv
    split at hv
    · exact absurd hv (hph r todo got)
    · exact hrel.inside v r todo got hv

omit [DecidableEq T] in
theorem Refines.alone (hrel : Refines s t) (hlock : s.lock = none ∨ s.lock = some u) (v : T)
    (hv : v ≠ u) (r : Running h gDefault) (todo : List Access) (got : Locals) :
    s.phase v ≠ .critical r todo got := by
  intro hcritical
  have hholds := (hrel.inside v r todo got hcritical).1
  rcases hlock with hlock | hlock
  · simp [hlock] at hholds
  · exact hv (Option.some.inj (hholds.symm.trans hlock))

theorem Refines.inner (hrel : Refines s t) (hbefore : s.lock = none ∨ s.lock = some u)
    (hlock : s'.lock = some u)
    (hphase : s'.phase = Function.update s.phase u (.critical r todo got))
    (hstatus : statusOf (s.phase u) = .invoked r.op)
    (hdoing : Doing h t.obj s'.process r.body todo got)
    (hdecided : ∃ c, s'.process.context h = some c ∧ ∀ v, (s.phase v).Stands c.minLevel) :
    Refines s' t := by
  obtain ⟨c, hc, hall⟩ := hdecided
  refine ⟨hphase ▸ status_stays hrel.proc hstatus, hrel.default, ⟨c, hc, ?_⟩, ?_, by simp [hlock]⟩
  · rw [hphase]
    exact (Function.forall_update_iff _ _).mpr ⟨trivial, fun v _ => hall v⟩
  · intro v r' todo' got' hv
    rw [hphase] at hv
    by_cases hvu : v = u
    · subst hvu
      rw [Function.update_self] at hv
      obtain ⟨rfl, rfl, rfl⟩ := Phase.critical.inj hv
      exact ⟨hlock, hdoing⟩
    · rw [Function.update_of_ne hvu] at hv
      exact absurd hv (hrel.alone hbefore v hvu r' todo' got')

theorem refines_call (hrel : Refines s t) (hs : step s (.call u r) = some s') :
    ∃ t', exec (AtomicObject.step (apply h)) t (label s (.call u r)) = some t' ∧ Refines s' t' := by
  simp only [step] at hs
  split at hs
  · rename_i hu
    obtain rfl := Option.some.inj hs
    have hidle : t.proc u = .idle := by
      rw [hrel.proc, Function.comp_apply, hu]
      rfl
    refine ⟨_, AtomicObject.exec_invoke hidle, ?_⟩
    exact hrel.outer (status_update hrel.proc u (.entered r)) (by simp) (fun _ _ => trivial)
  · simp at hs

theorem refines_test (hrel : Refines s t) (hs : step s (.test u) = some s') :
    ∃ t', exec (AtomicObject.step (apply h)) t (label s (.test u)) = some t' ∧ Refines s' t' := by
  simp only [step] at hs
  split at hs
  · rename_i r hu
    obtain ⟨c, hc, rfl⟩ := Option.map_eq_some_iff.mp hs
    refine ⟨t, rfl, hrel.outer (status_stays hrel.proc (by rw [hu]; rfl)) (by simp) ?_⟩
    intro d hd
    obtain rfl := Option.some.inj (hc.symm.trans hd)
    rfl
  · simp at hs

theorem refines_lock (hrel : Refines s t) (hs : step s (.lock u) = some s') :
    ∃ t', exec (AtomicObject.step (apply h)) t (label s (.lock u)) = some t' ∧ Refines s' t' := by
  simp only [step] at hs
  split at hs
  · rename_i r todo hu hfree
    obtain rfl := Option.some.inj hs
    obtain ⟨c, hc, hall⟩ := hrel.decided
    have hstands : todo = plan c.minLevel r.body := by
      have hown := hall u
      rwa [hu] at hown
    refine ⟨t, rfl, hrel.inner (.inl hfree) rfl rfl (by rw [hu]; rfl) ?_ ⟨c, hc, hall⟩⟩
    rw [hrel.outside hfree, hstands]
    exact Doing.start hc
  · simp at hs

theorem refines_access (hrel : Refines s t) (hstand : DecisionsStand s (.access u))
    (hs : step s (.access u) = some s') :
    ∃ t', exec (AtomicObject.step (apply h)) t (label s (.access u)) = some t' ∧ Refines s' t' := by
  simp only [step] at hs
  split at hs
  · rename_i r a todo got hu
    obtain ⟨⟨p, got'⟩, ho, rfl⟩ := Option.map_eq_some_iff.mp hs
    obtain ⟨hlock, hdoing⟩ := hrel.inside u r (a :: todo) got hu
    obtain ⟨c, hc, hall⟩ := hrel.decided
    obtain ⟨-, d, hd, hlevel⟩ := perform_spec hc ho
    refine ⟨t, rfl, hrel.inner (.inr hlock) hlock rfl (by rw [hu]; rfl)
      (hdoing.next ho) ⟨d, hd, ?_⟩⟩
    rw [hlevel]
    cases a with
    | storeLevel level => exact hstand level (by rw [hu]; rfl)
    | _ => exact hall
  · simp at hs

theorem refines_unlock (hrel : Refines s t) (hs : step s (.unlock u) = some s') :
    ∃ t', exec (AtomicObject.step (apply h)) t (label s (.unlock u)) = some t' ∧ Refines s' t' := by
  simp only [step] at hs
  split at hs
  · rename_i r got hu
    obtain rfl := Option.some.inj hs
    obtain ⟨hlock, hdoing⟩ := hrel.inside u r [] got hu
    have happly := hdoing.apply_eq hrel.default
    have hdone : (apply h t.obj r.op).2 = r.body.returned got := by rw [happly]
    simp only [label, hu, ← hdone]
    refine ⟨_, AtomicObject.exec_perform_respond (hrel.invoked hu), ?_⟩
    rw [happly]
    obtain ⟨c, hc, hall⟩ := hrel.decided
    refine ⟨status_update hrel.proc u .idle, ?_, ⟨c, hc, ?_⟩, ?_, fun _ => rfl⟩
    · exact hdoing.default.trans hrel.default
    · exact (Function.forall_update_iff _ _).mpr ⟨trivial, fun v _ => hall v⟩
    · intro v r' todo' got' hv
      simp only [State.setPhase, Function.update_apply] at hv
      split at hv
      · simp at hv
      · rename_i hvu
        exact absurd hv (hrel.alone (.inr hlock) v hvu r' todo' got')
  · simp at hs

theorem step_refines (s : State T h gDefault) (a : Action T h gDefault) (s' : State T h gDefault)
    (t : AtomicObject.State T Process Op Returned) (hrel : Refines s t)
    (hstand : DecisionsStand s a) (hs : step s a = some s') :
    ∃ t', exec (AtomicObject.step (apply h)) t (label s a) = some t' ∧ Refines s' t' := by
  cases a with
  | call u r => exact refines_call hrel hs
  | test u => exact refines_test hrel hs
  | lock u => exact refines_lock hrel hs
  | access u => exact refines_access hrel hstand hs
  | unlock u => exact refines_unlock hrel hs

/-- As long as no change of the level overtakes a comparison with it, the threads cannot tell the
logger from one on which every call happens at once, and while nobody holds the lock the lines and
counters are the same. -/
theorem logger_linearizable {p : Process} {c : UlogContext} (hopen : p.context h = some c)
    (as : List (Action T h p.gDefaultLogger)) (s : State T h p.gDefaultLogger)
    (hstand : Along step DecisionsStand (init p) as) (hrun : exec step (init p) as = some s) :
    ∃ t, exec (AtomicObject.step (apply h)) (AtomicObject.init p) (trace step label (init p) as) =
      some t ∧
      (s.lock = none → t.obj = s.process) := by
  obtain ⟨t, hlinear, hrel⟩ := refines step_refines (init_refines hopen) hstand hrun
  exact ⟨t, hlinear, hrel.outside⟩

instance (level : UlogLevel) : ∀ ph : Phase h gDefault, Decidable (ph.Stands level)
  | .waiting r todo => inferInstanceAs (Decidable (todo = plan level r.body))
  | .idle | .entered _ | .critical .. => .isTrue trivial

instance (s : State Bool h gDefault) : DecidablePred (DecisionsStand s)
  | .access u =>
    inferInstanceAs (Decidable (∀ level ∈ (s.phase u).storing, ∀ v, (s.phase v).Stands level))
  | .call .. | .test _ | .lock _ | .unlock _ => .isTrue trivial

def opened : Process := logInit .start .plain none

def logInfoLine : Running 0 opened.gDefaultLogger := ⟨.call .plain (.logInfo (.letters 6)), _, rfl⟩

def setError : Running 0 opened.gDefaultLogger :=
  ⟨.call .plain (.ulogSetLevel (some 0) .error), _, rfl⟩

def readStats : Running 0 opened.gDefaultLogger := ⟨.ulogStats, _, rfl⟩

/-- A whole call of a thread, from the comparison on, with `n` accesses. -/
def finish (u : Bool) (n : Nat) : List (Action Bool 0 opened.gDefaultLogger) :=
  [.test u, .lock u] ++ List.replicate n (.access u) ++ [.unlock u]

/-- The level is raised while a line of the old interface waits, and that line is written all the
same. -/
def raisedMeanwhile : List (Action Bool 0 opened.gDefaultLogger) :=
  [.call true logInfoLine, .test true, .call false setError] ++ finish false 1 ++
    [.lock true, .access true, .access true, .call false readStats, .test false, .access true,
      .access true, .access true, .unlock true, .lock false, .access false, .access false,
      .access false, .unlock false]

theorem raisedMeanwhile_linearizable :
    ∃ s, exec step (init opened) raisedMeanwhile = some s ∧
      trace step label (init opened) raisedMeanwhile =
        [.invoke true logInfoLine.op, .invoke false setError.op, .perform false,
          .respond false .done,
          .invoke false .ulogStats, .perform true, .respond true .done, .perform false,
          .respond false (.stats ⟨0, some 1, some 0⟩)] ∧
      ∃ t, exec (AtomicObject.step (apply 0)) (AtomicObject.init opened)
          (trace step label (init opened) raisedMeanwhile) = some t ∧
        (s.lock = none → t.obj = s.process) :=
  ⟨_, rfl, rfl, logger_linearizable rfl raisedMeanwhile _ (by decide) rfl⟩

def ulogInfoLine : Running 0 opened.gDefaultLogger :=
  ⟨.call .plain (.ulogInfo (some 0) (.letters 6)), _, rfl⟩

/-- The same with `ulog_info`, whose comparison is overtaken: its line is written below the level.
-/
def overtaken : List (Action Bool 0 opened.gDefaultLogger) :=
  [.call true ulogInfoLine, .test true, .call false setError] ++ finish false 1 ++
    [.call false readStats] ++ finish false 3 ++
    [.lock true, .access true, .access true, .access true, .access true, .access true, .unlock true,
      .call false readStats] ++ finish false 3

example : ¬ Along step DecisionsStand (init opened) overtaken ∧
    (exec step (init opened) overtaken).isSome ∧
    (exec (AtomicObject.step (apply 0)) (AtomicObject.init opened)
      (trace step label (init opened) overtaken)).isNone := by
  decide

end StudyC.Common.Concurrent
