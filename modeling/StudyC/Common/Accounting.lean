import Mathlib.Algebra.GroupWithZero.Nat
import StudyC.Common.Logger

/-!
# What the logger counts, and what it filters

`total_messages` counts the messages of one logger that were output, `dropped_messages` those that
were not.
-/

open CString Runs

namespace StudyC.Common

/-- The lines that a logger has written to syslog. -/
def Process.emitted (p : Process) (l : Nat) : Nat := p.syslog.countP (·.logger = l)

/-- A process, with the logging calls on one of its loggers since the last reset of that logger, and
the lines that the logger had written by then. -/
structure Watched where
  process : Process
  calls : Nat
  mark : Nat

def Watched.start : Watched := ⟨.start, 0, 0⟩

def watch (l : Nat) (w : Watched) (a : Env × Call) : Option Watched :=
  (step w.process a).map fun p =>
    if a.2 = .ulogStatsReset (some l) then ⟨p, 0, p.emitted l⟩
    else ⟨p, if (target w.process a).map Prod.fst = some l then w.calls + 1 else w.calls, w.mark⟩

structure Counted (l : Nat) (p : Process) (calls mark : Nat) : Prop where
  enabled : ∀ h c, p.context h = some c → c.syslogEnabled = true
  unborn : p.loggers.length ≤ l → calls = 0 ∧ p.emitted l = mark
  bound : mark ≤ p.emitted l ∧ p.emitted l ≤ mark + calls
  total : ∀ c, p.context l = some c → c.totalMessages + .ofNat mark = .ofNat (p.emitted l)
  all : ∀ c, p.context l = some c → c.totalMessages + c.droppedMessages = .ofNat calls

theorem counted_start (l : Nat) : Counted l .start 0 0 := by
  refine ⟨?_, ?_, ?_, ?_, ?_⟩
  all_goals simp [Process.start, Process.context, Process.emitted]

section
variable {l h calls mark : Nat} {p p' : Process} {c d : UlogContext} {env : Env} {level : UlogLevel}
  {file func : Option CStr} {line : Int} {text : CStr}

theorem Counted.change {m n : Nat} (hp : Counted l p calls mark) (hc : p.context h = some c)
    (hlength : p'.loggers.length = p.loggers.length)
    (hcontext : ∀ k, p'.context k = if k = h then some d else p.context k)
    (hemitted : p'.emitted l = if h = l then p.emitted l + m else p.emitted l)
    (henabled : d.syslogEnabled = c.syslogEnabled)
    (htotal : h = l → d.totalMessages = c.totalMessages + .ofNat m)
    (hdropped : h = l → d.droppedMessages = c.droppedMessages + .ofNat n) :
    Counted l p' (if h = l then calls + (m + n) else calls) mark := by
  have hbound := hp.bound
  refine ⟨?_, ?_, ?_, ?_, ?_⟩
  · intro k e he
    rw [hcontext] at he
    split at he
    · obtain rfl := Option.some.inj he
      rw [henabled]
      exact hp.enabled h c hc
    · exact hp.enabled k e he
  · intro hl
    have hlt := context_lt hc
    rw [hemitted, if_neg (by omega), if_neg (by omega)]
    exact hp.unborn (by omega)
  · rw [hemitted]
    split <;> omega
  · intro e he
    rw [hcontext] at he
    split at he
    · obtain rfl := Option.some.inj he
      subst l
      rw [hemitted, if_pos rfl, htotal rfl, UInt64.ofNat_add, ← hp.total c hc]
      ac_rfl
    · rename_i hne
      rw [hemitted, if_neg (Ne.symm hne)]
      exact hp.total e he
  · intro e he
    rw [hcontext] at he
    split at he
    · obtain rfl := Option.some.inj he
      subst l
      rw [if_pos rfl, htotal rfl, hdropped rfl, UInt64.ofNat_add, UInt64.ofNat_add, ← hp.all c hc]
      ac_rfl
    · rename_i hne
      rw [if_neg (Ne.symm hne)]
      exact hp.all e he

theorem emitted_put (p : Process) (h : Nat) (d : UlogContext) (l : Nat) :
    (p.put h d).emitted l = p.emitted l := rfl

theorem Counted.output (hp : Counted l p calls mark)
    (hs : ulogOutput p env (some h) level file line func text = some p') :
    Counted l p' (if h = l then calls + 1 else calls) mark := by
  obtain ⟨c, hc, rfl⟩ := Option.map_eq_some_iff.mp hs
  refine hp.change (m := 1) (n := 0) hc (by simp [Process.put])
    (context_put hc _) ?_ rfl (fun _ => rfl) (by simp)
  simp only [Process.emitted, hp.enabled h c hc, if_true, List.countP_append, List.countP_singleton,
    decide_eq_true_eq]
  split <;> rfl

theorem Counted.filtered (hp : Counted l p calls mark)
    (hs : filtered p env (some h) level file line func text = some p') :
    Counted l p' (if h = l then calls + 1 else calls) mark := by
  obtain ⟨c, hc, hs⟩ := Option.bind_eq_some_iff.mp hs
  split at hs
  · obtain rfl := Option.some.inj hs
    exact hp.change (m := 0) (n := 1) hc (by simp [Process.put]) (context_put hc _)
      (by simp [emitted_put]) rfl
      (by simp) (fun _ => rfl)
  · exact hp.output hs

theorem Counted.update {logger : UlogHandle} {f : UlogContext → UlogContext}
    (hp : Counted l p calls mark) (hs : update p logger f = some p')
    (hf : ∀ c, (f c).syslogEnabled = c.syslogEnabled ∧ (f c).totalMessages = c.totalMessages ∧
      (f c).droppedMessages = c.droppedMessages) :
    Counted l p' calls mark := by
  unfold Common.update at hs
  split at hs
  · obtain rfl := Option.some.inj hs
    exact hp
  · obtain ⟨c, hc, rfl⟩ := Option.map_eq_some_iff.mp hs
    obtain ⟨henabled, htotal, hdropped⟩ := hf c
    simpa using hp.change (m := 0) (n := 0) hc (by simp [Process.put]) (context_put hc _)
      (by simp [emitted_put])
      henabled (fun _ => by simpa using htotal) (fun _ => by simpa using hdropped)

theorem Counted.init (hp : Counted l p calls mark) (env : Env) (ident : Option CStr)
    (level : UlogLevel) (flags : UInt32) :
    Counted l (ulogInit p env ident level flags).1 calls mark := by
  rcases ulogInit_cases p env ident level flags with ⟨-, he⟩ | ⟨-, c, hen, htotal, hdropped, he⟩
  · rw [he]
    exact hp
  rw [he]
  refine ⟨?_, ?_, hp.bound, ?_, ?_⟩
  · intro k e hk
    rcases context_append hk with hold | ⟨-, rfl⟩
    · exact hp.enabled k e hold
    · exact hen
  · intro hl
    exact hp.unborn (by simp at hl; omega)
  · intro e hk
    rcases context_append hk with hold | ⟨hl, rfl⟩
    · exact hp.total e hold
    · rw [htotal, ← (hp.unborn (by omega)).2]
      exact UInt64.zero_add _
  · intro e hk
    rcases context_append hk with hold | ⟨hl, rfl⟩
    · exact hp.all e hold
    · rw [htotal, hdropped, (hp.unborn (by omega)).1]
      rfl

theorem Counted.setDefault (hp : Counted l p calls mark) (logger : UlogHandle) :
    Counted l { p with gDefaultLogger := logger } calls mark :=
  ⟨hp.enabled, hp.unborn, hp.bound, hp.total, hp.all⟩

theorem Counted.logInit (hp : Counted l p calls mark) (env : Env) (ident : Option CStr) :
    Counted l (logInit p env ident) calls mark := by
  unfold Common.logInit
  split
  · exact (hp.init env ident .info 0).setDefault _
  · exact hp

theorem Counted.legacy (hp : Counted l p calls mark) (hdefault : defaultLogger p env = some h)
    (hs : legacy p env level text = some p') :
    Counted l p' (if h = l then calls + 1 else calls) mark := by
  rw [legacy_eq, hdefault] at hs
  exact (hp.logInit env _).output hs

theorem Counted.close {logger : UlogHandle} (hp : Counted l p calls mark)
    (hs : ulogClose p logger = some p') : Counted l p' calls mark := by
  unfold ulogClose at hs
  split at hs
  · obtain rfl := Option.some.inj hs
    exact hp
  · obtain ⟨c, hc, rfl⟩ := Option.map_eq_some_iff.mp hs
    refine ⟨fun k e hk => hp.enabled k e (context_freed hk), ?_, hp.bound,
      fun e hk => hp.total e (context_freed hk), fun e hk => hp.all e (context_freed hk)⟩
    intro hl
    exact hp.unborn (by simpa using hl)

theorem Counted.logClose (hp : Counted l p calls mark) (hs : logClose p = some p') :
    Counted l p' calls mark := by
  unfold Common.logClose at hs
  split at hs
  · obtain rfl := Option.some.inj hs
    exact hp
  · obtain ⟨q, hq, rfl⟩ := Option.map_eq_some_iff.mp hs
    exact (hp.close hq).setDefault _

theorem Counted.log {call : Call} (hp : Counted l p calls mark)
    (ht : target p (env, call) = some (h, level)) (hs : step p (env, call) = some p') :
    Counted l p' (if h = l then calls + 1 else calls) mark := by
  rcases log_cases ht with
      ⟨-, file, line, func, text, he⟩ | ⟨-, -, text, he⟩ | ⟨-, hdefault, text, he⟩
  · exact hp.filtered (he ▸ hs)
  · exact hp.output (he ▸ hs)
  · exact hp.legacy hdefault (he ▸ hs)

theorem Counted.reset_other (hp : Counted l p calls mark) {logger : UlogHandle}
    (hne : logger ≠ some l) (hs : ulogStatsReset p logger = some p') : Counted l p' calls mark := by
  cases logger with
  | none =>
    obtain rfl := Option.some.inj hs
    exact hp
  | some h =>
    obtain ⟨c, hc, rfl⟩ := Option.map_eq_some_iff.mp hs
    have hl : h ≠ l := fun heq => hne (congrArg some heq)
    have hcounted := hp.change (m := 0) (n := 0) hc (by simp [Process.put])
      (context_put hc { c with totalMessages := 0, droppedMessages := 0 })
        (by simp [emitted_put]) rfl
      (absurd · hl) (absurd · hl)
    rwa [if_neg hl] at hcounted

theorem Counted.reset (hp : Counted l p calls mark) (hs : ulogStatsReset p (some l) = some p') :
    Counted l p' 0 (p'.emitted l) := by
  obtain ⟨c, hc, rfl⟩ := Option.map_eq_some_iff.mp hs
  refine ⟨?_, fun _ => ⟨rfl, rfl⟩, by simp, ?_, ?_⟩
  · intro k e he
    rw [context_put hc] at he
    split at he
    · obtain rfl := Option.some.inj he
      exact hp.enabled l c hc
    · exact hp.enabled k e he
  all_goals
    intro e he
    rw [context_put hc, if_pos rfl] at he
    obtain rfl := Option.some.inj he
    simp

theorem Counted.quiet {call : Call} (hp : Counted l p calls mark) (ht : target p (env, call) = none)
    (hreset : call ≠ .ulogStatsReset (some l)) (hs : step p (env, call) = some p') :
    Counted l p' calls mark := by
  cases call with
  | ulogInit ident level flags =>
    obtain rfl := Option.some.inj hs
    exact hp.init env ident level flags
  | ulogClose logger => exact hp.close hs
  | ulogSetLevel logger level => exact hp.update hs fun _ => ⟨rfl, rfl, rfl⟩
  | ulogStatsReset logger => exact hp.reset_other (fun hl => hreset (congrArg _ hl)) hs
  | ulogSetContextTag logger tag => exact hp.update hs fun _ => ⟨rfl, rfl, rfl⟩
  | logInit ident =>
    obtain rfl := Option.some.inj hs
    exact hp.logInit env ident
  | logClose => exact hp.logClose hs
  | logInfo text | logWarn text | logErr text =>
    -- no default logger, and none can be allocated
    have hdefault : defaultLogger p env = none := Option.map_eq_none_iff.mp ht
    replace hs : Common.legacy p env _ text = some p' := hs
    rw [legacy_eq, hdefault] at hs
    obtain rfl := Option.some.inj hs
    exact hp.logInit env _
  | ulogTrace logger text | ulogDebug logger text | ulogInfo logger text | ulogWarn logger text
  | ulogError logger text | ulogFatal logger text | ulogLog logger level text
  | ulogLogAt logger level file line func text =>
    obtain rfl := Option.map_eq_none_iff.mp ht
    obtain rfl := Option.some.inj hs
    exact hp

theorem watch_counted {w w' : Watched} {a : Env × Call} (hw : Counted l w.process w.calls w.mark)
    (hs : watch l w a = some w') : Counted l w'.process w'.calls w'.mark := by
  obtain ⟨env, call⟩ := a
  obtain ⟨p, hp, rfl⟩ := Option.map_eq_some_iff.mp hs
  dsimp only
  split
  · rename_i hreset
    subst hreset
    exact hw.reset hp
  · rename_i hreset
    dsimp only
    cases ht : target w.process (env, call) with
    | none => exact hw.quiet ht hreset hp
    | some t => simpa using hw.log ht hp

end

theorem watch_calls_le (l : Nat) {w w' : Watched} {as : List (Env × Call)}
    (hrun : exec (watch l) w as = some w') : w'.calls ≤ w.calls + as.length := by
  induction as generalizing w with
  | nil =>
    obtain rfl := Option.some.inj hrun
    exact Nat.le_refl _
  | cons a as ih =>
    obtain ⟨v, hv, hrest⟩ := exec_cons.mp hrun
    obtain ⟨p, hp, rfl⟩ := Option.map_eq_some_iff.mp hv
    have hle := ih hrest
    rw [List.length_cons]
    split at hle
    · dsimp only at hle
      omega
    · dsimp only at hle
      split at hle <;> omega

/-- `ulog_stats` reports the calls since the last reset, and those of them that were not output. -/
theorem stats_count_calls (l : Nat) (as : List (Env × Call)) (hlen : as.length < 2 ^ 64)
    {w : Watched} (hrun : exec (watch l) .start as = some w)
    (hlive : (w.process.context l).isSome) :
    ∃ total dropped : UInt64, ulogStats w.process (some l) = some ⟨0, some total, some dropped⟩ ∧
      total.toNat = w.calls ∧
      dropped.toNat = w.calls - (w.process.emitted l - w.mark) ∧
      total.toNat - dropped.toNat = w.process.emitted l - w.mark := by
  have hw : Counted l w.process w.calls w.mark :=
    Runs.Reachable.invariant (I := fun w => Counted l w.process w.calls w.mark) (counted_start l)
      (fun _ _ _ h hs => watch_counted h hs) ⟨as, hrun⟩
  have hcalls : w.calls ≤ as.length := by simpa [Watched.start] using watch_calls_le l hrun
  obtain ⟨c, hc⟩ := Option.isSome_iff_exists.mp hlive
  obtain ⟨hmark, hbound⟩ := hw.bound
  have htotal := congrArg UInt64.toNat (hw.total c hc)
  have hall := congrArg UInt64.toNat (hw.all c hc)
  rw [UInt64.toNat_add, UInt64.toNat_ofNat', UInt64.toNat_ofNat'] at htotal
  rw [UInt64.toNat_ofNat', Nat.mod_eq_of_lt (by omega)] at hall
  have hemitted : c.totalMessages.toNat = w.process.emitted l - w.mark := by
    have hlt := c.totalMessages.toNat_lt
    omega
  have hdropped : c.droppedMessages.toNat = w.calls - (w.process.emitted l - w.mark) := by
    have hlt := c.droppedMessages.toNat_lt
    rw [UInt64.toNat_add] at hall
    omega
  refine ⟨c.totalMessages + c.droppedMessages, c.droppedMessages, by simp [ulogStats, hc], hall,
    hdropped, ?_⟩
  rw [hall]
  omega

def Env.plain : Env := ⟨.lit "1970-01-01 00:00:00", 1, true, true⟩

def sampleCalls : List (Env × Call) :=
  [.ulogInit none .warn 0, .ulogInfo (some 0) (.letters 1), .ulogError (some 0) (.letters 2),
    .ulogStatsReset (some 0), .ulogDebug (some 0) (.letters 3),
    .ulogFatal (some 0) (.letters 4)].map (.plain, ·)

theorem stats_count_sample : ∃ w total dropped, exec (watch 0) .start sampleCalls = some w ∧
    ulogStats w.process (some 0) = some ⟨0, some total, some dropped⟩ ∧ total.toNat = 2 ∧
      dropped.toNat = 1 := by
  obtain ⟨w, hrun, hlive, hcalls, hemitted⟩ : ∃ w, exec (watch 0) .start sampleCalls = some w ∧
      (w.process.context 0).isSome ∧ w.calls = 2 ∧ w.process.emitted 0 - w.mark = 1 :=
      ⟨_, rfl, rfl, rfl, rfl⟩
  obtain ⟨total, dropped, hstats, htotal, hdropped, -⟩ :=
    stats_count_calls 0 sampleCalls (by decide) hrun hlive
  exact ⟨w, total, dropped, hrun,
    hstats, by rw [htotal, hcalls], by rw [hdropped, hcalls, hemitted]⟩

/-! ## The level filter -/

/-- A message below the level of its logger is not output, and is counted as dropped. -/
def Filtered (p : Process) (a : Env × Call) : Prop :=
  ∀ h level c, target p a = some (h, level) → p.context h = some c → level < c.minLevel →
    ∃ p' d, step p a = some p' ∧ p'.syslog = p.syslog ∧ p'.file = p.file ∧ p'.context h = some d ∧
      d.droppedMessages = c.droppedMessages + 1

/-- A call of the old interface finds the default logger at its level or below. -/
def AtDefaultLevel (p : Process) (a : Env × Call) : Prop :=
  ∀ level minLevel, a.2.legacyLevel = some level → ulogGetLevel p p.gDefaultLogger = some minLevel →
    ¬ level < minLevel

theorem legacy_target {p : Process} {env : Env} {call : Call} {h : Nat} {level : UlogLevel}
    (hlevel : call.legacyLevel = some level) (hdefault : p.gDefaultLogger = some h) :
    target p (env, call) = some (h, level) := by
  cases call with
  | logInfo text | logWarn text | logErr text =>
    obtain rfl := Option.some.inj hlevel
    simp [target, defaultLogger, hdefault]
  | _ => simp [Call.legacyLevel] at hlevel

theorem legacy_not_lt_info {call : Call} {level : UlogLevel}
    (hlevel : call.legacyLevel = some level) : ¬ level < .info := by
  cases call with
  | logInfo text | logWarn text | logErr text =>
    obtain rfl := Option.some.inj hlevel
    decide
  | _ => simp [Call.legacyLevel] at hlevel

theorem legacy_dropped {p p' : Process} {env : Env} {h : Nat} {c d : UlogContext}
    {level : UlogLevel} {text : CStr} (hdefault : p.gDefaultLogger = some h)
    (hc : p.context h = some c) (hs : legacy p env level text = some p')
    (hd : p'.context h = some d) : d.droppedMessages = c.droppedMessages := by
  have htarget : defaultLogger p env = some h := by
    unfold defaultLogger
    rw [hdefault]
  rw [legacy_eq, logInit_of_default hdefault, htarget] at hs
  obtain ⟨c', hc', rfl⟩ := Option.map_eq_some_iff.mp hs
  obtain rfl := Option.some.inj (hc.symm.trans hc')
  have hput : (p.put h { c with totalMessages := c.totalMessages + 1 }).context h = some d := hd
  rw [context_put hc, if_pos rfl] at hput
  obtain rfl := Option.some.inj hput
  rfl

theorem filtered_iff (p : Process) (a : Env × Call) : Filtered p a ↔ AtDefaultLevel p a := by
  obtain ⟨env, call⟩ := a
  constructor
  · intro hfiltered level minLevel hlevel hmin hlt
    cases hdefault : p.gDefaultLogger with
    | none =>
      rw [hdefault] at hmin
      obtain rfl := Option.some.inj hmin
      exact legacy_not_lt_info hlevel hlt
    | some h =>
      rw [hdefault] at hmin
      obtain ⟨c, hc, rfl⟩ := Option.map_eq_some_iff.mp hmin
      have ht : target p (env, call) = some (h, level) := legacy_target hlevel hdefault
      obtain ⟨p', d, hs, -, -, hd, hdropped⟩ := hfiltered h level c ht hc hlt
      rcases log_cases ht with ⟨hnone, -⟩ | ⟨hnone, -⟩ | ⟨-, -, text, he⟩
      · simp [hnone] at hlevel
      · simp [hnone] at hlevel
      · rw [legacy_dropped hdefault hc (he ▸ hs) hd] at hdropped
        simp at hdropped
  · intro hadmits h level c ht hc hlt
    rcases log_cases ht with ⟨-, file, line, func, text, he⟩ | ⟨-, rfl, -⟩ | ⟨hlevel, hdefault, -⟩
    · refine ⟨p.put h { c with droppedMessages := c.droppedMessages + 1 }, _, ?_, rfl, rfl,
        (context_put hc _ _).trans (if_pos rfl), rfl⟩
      rw [he]
      simp [filtered, hc, hlt]
    · exact absurd hlt (UlogLevel.not_fatal_lt _)
    · cases hd : p.gDefaultLogger with
      | none =>
        -- the logger that the call would allocate is not there yet
        have hlength : h = p.loggers.length := by
          unfold defaultLogger at hdefault
          rw [hd] at hdefault
          simp only [Option.ite_none_right_eq_some, Option.some.injEq] at hdefault
          exact hdefault.2.symm
        have := context_lt hc
        omega
      | some k =>
        obtain rfl : k = h := by simpa [defaultLogger, hd] using hdefault
        exact absurd hlt (hadmits level c.minLevel hlevel (by simp [ulogGetLevel, hd, hc]))

/-- The filter is uniform in exactly the runs that use the old interface at the default logger's
level. -/
theorem filtering_uniform_iff (p : Process) (as : List (Env × Call)) :
    Along step Filtered p as ↔ Along step AtDefaultLevel p as :=
  along_congr (I := fun _ => True) (fun _ _ _ _ _ _ => trivial)
    (fun p a _ => filtered_iff p a) trivial as

def quietedDefault : List (Env × Call) :=
  [.logInit none, .ulogSetLevel (some 0) .error, .logInfo (.letters 5)].map (.plain, ·)

theorem filtering_not_uniform : ¬ Along step Filtered .start quietedDefault ∧
    ∃ p, exec step .start quietedDefault = some p ∧ ulogGetLevel p (some 0) = some .error ∧
      p.syslog.map (·.priority) = [.info] ∧ ulogStats p (some 0) = some ⟨0, some 1, some 0⟩ := by
  refine ⟨?_, _, rfl, rfl, rfl, rfl⟩
  intro h
  exact (filtered_iff _ _).mp ((h.2 _ rfl).2 _ rfl).1 .info .error rfl rfl (by decide)

end StudyC.Common
