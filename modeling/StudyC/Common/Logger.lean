import StudyC.Lib.CString
import StudyC.Lib.Runs

/-!
# The unified logger

A handle is the index of a context among all that were ever allocated, and `none` is `NULL`. A freed
context leaves `none` behind, and a call through its handle has no result. Each call holds the
logger's lock where it writes, so a run is a list of calls.
-/

open CString Runs

namespace StudyC.Common

inductive UlogLevel where
  | trace | debug | info | warn | error | fatal
  deriving DecidableEq, Repr

def UlogLevel.value : UlogLevel → Nat
  | trace => 0
  | debug => 1
  | info => 2
  | warn => 3
  | error => 4
  | fatal => 5

instance : LT UlogLevel := ⟨fun a b => a.value < b.value⟩

instance : DecidableLT UlogLevel := fun a b => inferInstanceAs (Decidable (a.value < b.value))

theorem UlogLevel.not_fatal_lt (level : UlogLevel) : ¬ fatal < level := by
  cases level <;> decide

inductive SyslogPriority where
  | crit | err | warning | info | debug
  deriving DecidableEq, Repr

def ulogLevelToSyslogPriority : UlogLevel → SyslogPriority
  | .trace | .debug => .debug
  | .info => .info
  | .warn => .warning
  | .error => .err
  | .fatal => .crit

def ulogLevelStr : UlogLevel → List UInt8
  | .trace => ascii "TRACE"
  | .debug => ascii "DEBUG"
  | .info => ascii "INFO"
  | .warn => ascii "WARN"
  | .error => ascii "ERROR"
  | .fatal => ascii "FATAL"

structure UlogContext where
  ident : Vector UInt8 64
  minLevel : UlogLevel
  flags : UInt32
  syslogEnabled : Bool
  fileEnabled : Bool
  /-- Whether `file_ptr` is not `NULL`. -/
  filePtr : Bool
  totalMessages : UInt64
  droppedMessages : UInt64
  contextTag : Vector UInt8 32

abbrev UlogHandle := Option Nat

/-- A message as the texts that the calls of `snprintf` append to it. -/
abbrev Pieces := List (List UInt8)

structure SyslogLine where
  logger : Nat
  /-- What `openlog` was last given. -/
  ident : Option (Vector UInt8 64)
  priority : SyslogPriority
  message : Pieces

structure Process where
  loggers : List (Option UlogContext)
  gDefaultLogger : UlogHandle
  openlogIdent : Option (Vector UInt8 64)
  syslog : List SyslogLine
  file : List Pieces

def Process.start : Process := ⟨[], none, none, [], []⟩

def Process.context (p : Process) (h : Nat) : Option UlogContext := p.loggers[h]?.join

def Process.put (p : Process) (h : Nat) (c : UlogContext) : Process :=
  { p with loggers := p.loggers.set h (some c) }

structure Env where
  /-- The text of `strftime`. -/
  now : CStr
  self : UInt64
  mallocOk : Bool
  fopenOk : Bool

/-! ## Output -/

def bracketed (text : List UInt8) : List UInt8 := ascii "[" ++ text ++ ascii "] "

def location (file : Option CStr) (line : Int) (func : Option CStr) : Option (List UInt8) :=
  match file, func with
  | some file, some func =>
    some (bracketed (file.bytes ++ ascii ":" ++ ascii (toString line) ++ ascii ":" ++ func.bytes))
  | _, _ => none

def pieces (c : UlogContext) (env : Env) (level : UlogLevel) (file : Option CStr) (line : Int)
    (func : Option CStr) (text : CStr) : Pieces :=
  (if c.flags &&& 0x04 ≠ 0 then [bracketed env.now.bytes] else []) ++
    [bracketed (ulogLevelStr level)] ++
    (if c.flags &&& 0x02 ≠ 0 then [bracketed (ascii "TID:" ++ ascii (toString env.self))]
      else []) ++
    (if c.contextTag[0] ≠ 0 then [bracketed (cstr c.contextTag.toList)] else []) ++
    (location file line func).toList ++ [text.bytes]

def ulogOutput (p : Process) (env : Env) (logger : UlogHandle) (level : UlogLevel)
    (file : Option CStr) (line : Int) (func : Option CStr) (text : CStr) : Option Process :=
  match logger with
  | none => some p
  | some h => (p.context h).map fun c =>
    let message := pieces c env level file line func text
    { p.put h { c with totalMessages := c.totalMessages + 1 } with
      syslog := if c.syslogEnabled then
          p.syslog ++ [⟨h, p.openlogIdent, ulogLevelToSyslogPriority level, message⟩]
        else p.syslog
      file := if c.fileEnabled && c.filePtr then p.file ++ [message] else p.file }

/-! ## Initialisation -/

def ulogInit (p : Process) (env : Env) (ident : Option CStr) (level : UlogLevel) (flags : UInt32) :
    Process × UlogHandle :=
  if env.mallocOk then
    let zeroed : Vector UInt8 64 := .replicate 64 0
    let ident := match ident with
      | some ident => strncpy zeroed ident.bytes 63
      | none => zeroed
    let opened := flags &&& 0x01 ≠ 0 && env.fopenOk
    let c : UlogContext :=
      { ident, minLevel := level, flags
        syslogEnabled := true, fileEnabled := opened, filePtr := opened
        totalMessages := 0, droppedMessages := 0, contextTag := .replicate 32 0 }
    ({ p with loggers := p.loggers ++ [some c], openlogIdent := some ident }, some p.loggers.length)
  else (p, none)

def ulogClose (p : Process) (logger : UlogHandle) : Option Process :=
  match logger with
  | none => some p
  | some h =>
    (p.context h).map fun _ => { p with loggers := p.loggers.set h none, openlogIdent := none }

def update (p : Process) (logger : UlogHandle) (f : UlogContext → UlogContext) : Option Process :=
  match logger with
  | none => some p
  | some h => (p.context h).map fun c => p.put h (f c)

def ulogSetLevel (p : Process) (logger : UlogHandle) (level : UlogLevel) : Option Process :=
  update p logger fun c => { c with minLevel := level }

def ulogGetLevel (p : Process) (logger : UlogHandle) : Option UlogLevel :=
  match logger with
  | none => some .info
  | some h => (p.context h).map (·.minLevel)

/-! ## Logging -/

/-- The body that `ulog_trace` to `ulog_error`, `ulog_log` and `ulog_log_at` share. -/
def filtered (p : Process) (env : Env) (logger : UlogHandle) (level : UlogLevel)
    (file : Option CStr) (line : Int) (func : Option CStr) (text : CStr) : Option Process :=
  match logger with
  | none => some p
  | some h => (p.context h).bind fun c =>
    if c.minLevel > level then some (p.put h { c with droppedMessages := c.droppedMessages + 1 })
    else ulogOutput p env (some h) level file line func text

def ulogTrace (p : Process) (env : Env) (logger : UlogHandle) (text : CStr) : Option Process :=
  filtered p env logger .trace none 0 none text

def ulogDebug (p : Process) (env : Env) (logger : UlogHandle) (text : CStr) : Option Process :=
  filtered p env logger .debug none 0 none text

def ulogInfo (p : Process) (env : Env) (logger : UlogHandle) (text : CStr) : Option Process :=
  filtered p env logger .info none 0 none text

def ulogWarn (p : Process) (env : Env) (logger : UlogHandle) (text : CStr) : Option Process :=
  filtered p env logger .warn none 0 none text

def ulogError (p : Process) (env : Env) (logger : UlogHandle) (text : CStr) : Option Process :=
  filtered p env logger .error none 0 none text

-- Unlike its siblings it does not look at min_level.
def ulogFatal (p : Process) (env : Env) (logger : UlogHandle) (text : CStr) : Option Process :=
  match logger with
  | none => some p
  | some h => ulogOutput p env (some h) .fatal none 0 none text

def ulogLog (p : Process) (env : Env) (logger : UlogHandle) (level : UlogLevel) (text : CStr) :
    Option Process :=
  filtered p env logger level none 0 none text

def ulogLogAt (p : Process) (env : Env) (logger : UlogHandle) (level : UlogLevel)
    (file : Option CStr) (line : Int) (func : Option CStr) (text : CStr) : Option Process :=
  filtered p env logger level file line func text

/-! ## Statistics -/

structure Stats where
  ret : Int
  totalLogs : Option UInt64
  droppedLogs : Option UInt64
  deriving DecidableEq

/-- What is stored through the two pointers, if both are given. -/
def ulogStats (p : Process) (logger : UlogHandle) : Option Stats :=
  match logger with
  | none => some ⟨-1, none, none⟩
  | some h => (p.context h).map fun c =>
    ⟨0, some (c.totalMessages + c.droppedMessages), some c.droppedMessages⟩

def ulogStatsReset (p : Process) (logger : UlogHandle) : Option Process :=
  update p logger fun c => { c with totalMessages := 0, droppedMessages := 0 }

def ulogSetContextTag (p : Process) (logger : UlogHandle) (tag : Option CStr) : Option Process :=
  update p logger fun c => { c with
    contextTag := match tag with
      | some tag => strncpy c.contextTag tag.bytes 31
      | none => c.contextTag.set 0 0 }

/-! ## The default logger -/

def logInit (p : Process) (env : Env) (ident : Option CStr) : Process :=
  match p.gDefaultLogger with
  | none =>
    let (p, logger) := ulogInit p env ident .info 0
    { p with gDefaultLogger := logger }
  | some _ => p

def logClose (p : Process) : Option Process :=
  match p.gDefaultLogger with
  | none => some p
  | some h => (ulogClose p (some h)).map fun p => { p with gDefaultLogger := none }

/-- The body of `log_info`, `log_warn` and `log_err`. -/
def legacy (p : Process) (env : Env) (level : UlogLevel) (text : CStr) : Option Process :=
  let p := logInit p env (some (.lit "unknown"))
  ulogOutput p env p.gDefaultLogger level none 0 none text

def logInfo (p : Process) (env : Env) (text : CStr) : Option Process := legacy p env .info text

def logWarn (p : Process) (env : Env) (text : CStr) : Option Process := legacy p env .warn text

def logErr (p : Process) (env : Env) (text : CStr) : Option Process := legacy p env .error text

/-! ## Calls -/

inductive Call where
  | ulogInit (ident : Option CStr) (level : UlogLevel) (flags : UInt32)
  | ulogClose (logger : UlogHandle)
  | ulogSetLevel (logger : UlogHandle) (level : UlogLevel)
  | ulogTrace (logger : UlogHandle) (text : CStr)
  | ulogDebug (logger : UlogHandle) (text : CStr)
  | ulogInfo (logger : UlogHandle) (text : CStr)
  | ulogWarn (logger : UlogHandle) (text : CStr)
  | ulogError (logger : UlogHandle) (text : CStr)
  | ulogFatal (logger : UlogHandle) (text : CStr)
  | ulogLog (logger : UlogHandle) (level : UlogLevel) (text : CStr)
  | ulogLogAt (logger : UlogHandle) (level : UlogLevel) (file : Option CStr) (line : Int)
      (func : Option CStr) (text : CStr)
  | ulogStatsReset (logger : UlogHandle)
  | ulogSetContextTag (logger : UlogHandle) (tag : Option CStr)
  | logInit (ident : Option CStr)
  | logClose
  | logInfo (text : CStr)
  | logWarn (text : CStr)
  | logErr (text : CStr)
  deriving DecidableEq

def step (p : Process) : Env × Call → Option Process
  | (env, .ulogInit ident level flags) => some (ulogInit p env ident level flags).1
  | (_, .ulogClose logger) => ulogClose p logger
  | (_, .ulogSetLevel logger level) => ulogSetLevel p logger level
  | (env, .ulogTrace logger text) => ulogTrace p env logger text
  | (env, .ulogDebug logger text) => ulogDebug p env logger text
  | (env, .ulogInfo logger text) => ulogInfo p env logger text
  | (env, .ulogWarn logger text) => ulogWarn p env logger text
  | (env, .ulogError logger text) => ulogError p env logger text
  | (env, .ulogFatal logger text) => ulogFatal p env logger text
  | (env, .ulogLog logger level text) => ulogLog p env logger level text
  | (env, .ulogLogAt logger level file line func text) =>
    ulogLogAt p env logger level file line func text
  | (_, .ulogStatsReset logger) => ulogStatsReset p logger
  | (_, .ulogSetContextTag logger tag) => ulogSetContextTag p logger tag
  | (env, .logInit ident) => some (logInit p env ident)
  | (_, .logClose) => logClose p
  | (env, .logInfo text) => logInfo p env text
  | (env, .logWarn text) => logWarn p env text
  | (env, .logErr text) => logErr p env text

/-- The logger that `log_info`, `log_warn` and `log_err` write to. -/
def defaultLogger (p : Process) (env : Env) : UlogHandle :=
  match p.gDefaultLogger with
  | none => if env.mallocOk then some p.loggers.length else none
  | some h => some h

def target (p : Process) : Env × Call → Option (Nat × UlogLevel)
  | (_, .ulogTrace logger _) => logger.map (·, .trace)
  | (_, .ulogDebug logger _) => logger.map (·, .debug)
  | (_, .ulogInfo logger _) => logger.map (·, .info)
  | (_, .ulogWarn logger _) => logger.map (·, .warn)
  | (_, .ulogError logger _) => logger.map (·, .error)
  | (_, .ulogFatal logger _) => logger.map (·, .fatal)
  | (_, .ulogLog logger level _) => logger.map (·, level)
  | (_, .ulogLogAt logger level _ _ _ _) => logger.map (·, level)
  | (env, .logInfo _) => (defaultLogger p env).map (·, .info)
  | (env, .logWarn _) => (defaultLogger p env).map (·, .warn)
  | (env, .logErr _) => (defaultLogger p env).map (·, .error)
  | _ => none

theorem context_lt {p : Process} {h : Nat} {c : UlogContext} (hc : p.context h = some c) :
    h < p.loggers.length := by
  unfold Process.context at hc
  rw [Option.join_eq_some_iff] at hc
  exact (List.getElem?_eq_some_iff.mp hc).1

theorem context_put {p : Process} {h : Nat} {c : UlogContext} (hc : p.context h = some c)
    (d : UlogContext) (k : Nat) :
    (p.put h d).context k = if k = h then some d else p.context k := by
  unfold Process.context Process.put
  split
  · rename_i hk
    rw [hk, List.getElem?_set_self (context_lt hc)]
    rfl
  · rename_i hk
    rw [List.getElem?_set_ne (Ne.symm hk)]

theorem context_append {p : Process} {c : UlogContext} {ident : Option (Vector UInt8 64)} {k : Nat}
    {e : UlogContext}
    (hk : { p with loggers := p.loggers ++ [some c], openlogIdent := ident : Process }.context k =
      some e) :
    p.context k = some e ∨ (k = p.loggers.length ∧ e = c) := by
  unfold Process.context at hk ⊢
  rcases Nat.lt_trichotomy k p.loggers.length with hlt | rfl | hgt
  · rw [List.getElem?_append_left hlt] at hk
    exact Or.inl hk
  · exact Or.inr ⟨rfl, by simpa using hk.symm⟩
  · rw [List.getElem?_eq_none (by simp; omega)] at hk
    simp at hk

theorem context_freed {p : Process} {h : Nat} {ident : Option (Vector UInt8 64)} {k : Nat}
    {e : UlogContext}
    (hk : { p with loggers := p.loggers.set h none, openlogIdent := ident : Process }.context k =
      some e) :
    p.context k = some e := by
  unfold Process.context at hk ⊢
  by_cases hne : h = k
  · rw [hne, List.getElem?_set_self'] at hk
    cases hold : p.loggers[k]? with
    | none => simp [hold] at hk
    | some o => simp [hold] at hk
  · rwa [List.getElem?_set_ne hne] at hk

theorem ulogInit_cases (p : Process) (env : Env) (ident : Option CStr) (level : UlogLevel)
    (flags : UInt32) :
    (env.mallocOk = false ∧ ulogInit p env ident level flags = (p, none)) ∨
      (env.mallocOk = true ∧ ∃ c : UlogContext, c.syslogEnabled = true ∧ c.totalMessages = 0 ∧
        c.droppedMessages = 0 ∧ ulogInit p env ident level flags =
          ({ p with loggers := p.loggers ++ [some c], openlogIdent := some c.ident },
            some p.loggers.length)) := by
  unfold ulogInit
  cases env.mallocOk with
  | false => exact Or.inl ⟨rfl, rfl⟩
  | true => exact Or.inr ⟨rfl, _, rfl, rfl, rfl, rfl⟩

theorem logInit_default (p : Process) (env : Env) (ident : Option CStr) :
    (logInit p env ident).gDefaultLogger = defaultLogger p env := by
  unfold logInit defaultLogger
  split
  · rcases ulogInit_cases p env ident .info 0 with ⟨hm, he⟩ | ⟨hm, c, -, -, -, he⟩
    all_goals rw [he, hm]; rfl
  · assumption

theorem logInit_of_default {p : Process} {h : Nat} (hdefault : p.gDefaultLogger = some h)
    (env : Env) (ident : Option CStr) : logInit p env ident = p := by
  unfold logInit
  rw [hdefault]

theorem legacy_eq (p : Process) (env : Env) (level : UlogLevel) (text : CStr) :
    legacy p env level text =
      ulogOutput (logInit p env (some (.lit "unknown"))) env (defaultLogger p env) level none 0 none
        text := by
  unfold legacy
  dsimp only
  rw [logInit_default]

def Call.legacyLevel : Call → Option UlogLevel
  | .logInfo _ => some .info
  | .logWarn _ => some .warn
  | .logErr _ => some .error
  | _ => none

theorem log_cases {p : Process} {env : Env} {call : Call} {h : Nat} {level : UlogLevel}
    (ht : target p (env, call) = some (h, level)) :
    (call.legacyLevel = none ∧ ∃ file line func text,
        step p (env, call) = filtered p env (some h) level file line func text) ∨
      (call.legacyLevel = none ∧ level = .fatal ∧ ∃ text,
        step p (env, call) = ulogOutput p env (some h) .fatal none 0 none text) ∨
      (call.legacyLevel = some level ∧ defaultLogger p env = some h ∧ ∃ text,
        step p (env, call) = legacy p env level text) := by
  cases call with
  | ulogTrace logger text | ulogDebug logger text | ulogInfo logger text | ulogWarn logger text
  | ulogError logger text | ulogLog logger _ text =>
    obtain ⟨k, rfl, hk⟩ := Option.map_eq_some_iff.mp ht
    obtain ⟨rfl, rfl⟩ := Prod.mk.inj hk
    exact Or.inl ⟨rfl, none, 0, none, text, rfl⟩
  | ulogLogAt logger _ file line func text =>
    obtain ⟨k, rfl, hk⟩ := Option.map_eq_some_iff.mp ht
    obtain ⟨rfl, rfl⟩ := Prod.mk.inj hk
    exact Or.inl ⟨rfl, file, line, func, text, rfl⟩
  | ulogFatal logger text =>
    obtain ⟨k, rfl, hk⟩ := Option.map_eq_some_iff.mp ht
    obtain ⟨rfl, rfl⟩ := Prod.mk.inj hk
    exact Or.inr (Or.inl ⟨rfl, rfl, text, rfl⟩)
  | logInfo text | logWarn text | logErr text =>
    obtain ⟨k, hdefault, hk⟩ := Option.map_eq_some_iff.mp ht
    obtain ⟨rfl, rfl⟩ := Prod.mk.inj hk
    exact Or.inr (Or.inr ⟨rfl, hdefault, text, rfl⟩)
  | _ => simp [target] at ht

end StudyC.Common
