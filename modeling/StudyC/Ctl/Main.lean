import StudyC.Ctl.Send
import StudyC.Lib.Appends
import StudyC.Lib.Decimal
import StudyC.Mgmt.Messages

/-!
# mgmtctl

`main.c`: from the arguments to one request, and from the response to the terminal. `argv` is the
list of the arguments with the name of the program first.
-/

open CString Decimal

open Appends (intMax)

namespace StudyC.Ctl

open Mgmt

def moduleToPath (module : CStr) : Option (List UInt8) :=
  if module.bytes = ascii "collector" then some (ascii "/tmp/studyc_collector.sock")
  else if module.bytes = ascii "router" then some (ascii "/tmp/studyc_router.sock")
  else if module.bytes = ascii "viewer" then some (ascii "/tmp/studyc_viewer.sock")
  else none

def commandTable : List (List UInt8 × MgmtCommandType) :=
  [(ascii "ping", .ping), (ascii "status", .getStatus), (ascii "metrics", .getMetrics),
    (ascii "reset", .resetMetrics), (ascii "loglevel", .setLogLevel),
    (ascii "bufsize", .setBufferSize), (ascii "profiling", .enableProfiling),
    (ascii "tracing", .enableTracing), (ascii "config", .getConfig), (ascii "shutdown", .shutdown)]

def logLevelTable : List (List UInt8 × LogLevel) :=
  [(ascii "trace", .trace), (ascii "debug", .debug), (ascii "info", .info), (ascii "warn", .warn),
    (ascii "error", .error), (ascii "fatal", .fatal)]

/-- The loop over a table: the first entry whose name is the string. -/
def findName {α : Type} (table : List (List UInt8 × α)) (s : CStr) : Option α :=
  (table.find? fun e => s.bytes = e.1).map (·.2)

def parseCommand (s : CStr) : Option UInt8 := (findName commandTable s).map (·.code)

def parseLoglevel (s : CStr) : Option UInt8 := (findName logLevelTable s).map (·.code)

/-- `n` bytes of a number, the lowest first. -/
def leBytes : Nat → Nat → List UInt8
  | 0, _ => []
  | n + 1, v => .ofNat v :: leBytes n (v / 256)

/-- `memcpy(payload, &size, sizeof(int))`. -/
def intBytes (size : Int32) : List UInt8 := leBytes 4 size.toUInt32.toNat

/-- `MGMT_REQ_PAYLOAD_AS_INT`. -/
def payloadAsInt (req : MgmtCommandRequest) : Int :=
  (UInt32.ofNat (leNat (req.payload.toList.take 4))).toInt32.toInt

/-- The payload that a command takes from the arguments behind it, or the text of the refusal. -/
def commandPayload (cmdType : UInt8) (args : List CStr) : Except (List UInt8) (List UInt8) :=
  if cmdType = MgmtCommandType.setLogLevel.code then
    match args with
    | [] => .error (ascii "loglevel requires a level argument\n")
    | arg :: _ => match parseLoglevel arg with
      | none => .error (ascii "Unknown log level: " ++ arg.bytes ++ ascii "\n")
      | some level => .ok [level]
  else if cmdType = MgmtCommandType.setBufferSize.code then
    match args with
    | [] => .error (ascii "bufsize requires a size argument\n")
    | arg :: _ =>
      let (size, rest) := strtol arg.bytes
      if rest ≠ [] ∨ size ≤ 0 ∨ size > intMax then
        .error (ascii "Invalid buffer size: " ++ arg.bytes ++ ascii "\n")
      else .ok (intBytes (.ofInt size))
  else .ok []

/-! ## Sending -/

/-- What the system calls of `mgmt_send_command` do in one run of the program. -/
structure Env where
  clock : Clock
  socketOk : Bool
  bindOk : Bool
  sendOk : Bool
  /-- The datagram that comes before the timeout. -/
  reply : Option Datagram

abbrev SunPath := Vector UInt8 108

def sunPath (path : List UInt8) : SunPath := strncpy (.replicate 108 0) path 107

/-- `mgmt_send_command` from start to end: what it has sent where, and the response if it returns 0.
-/
def sendCommand (env : Env) (path : List UInt8) (req : MgmtCommandRequest) :
    List (SunPath × MgmtCommandRequest) × Option MgmtCommandResponse :=
  if env.socketOk && env.bindOk && env.sendOk then
    ([(sunPath path, req)],
      env.reply.bind fun d => if mgmtResponseSize ≤ d.size then some d.content else none)
  else ([], none)

/-! ## The program -/

structure Outcome where
  exit : Int
  sent : List (SunPath × MgmtCommandRequest)
  stderr : List UInt8
  /-- Nothing if the print leaves the payload field. -/
  stdout : Option (List UInt8)

def usageText : String :=
  " <module> <command> [arg]\n" ++
  "\n" ++
  "Modules : collector, router, viewer\n" ++
  "\n" ++
  "Commands:\n" ++
  "  ping                  Liveness check\n" ++
  "  status                Get module status\n" ++
  "  metrics               Get performance metrics\n" ++
  "  reset                 Reset metric counters\n" ++
  "  loglevel <level>      Set log level  (trace|debug|info|warn|error|fatal)\n" ++
  "  bufsize  <size>       Resize buffer capacity\n" ++
  "  profiling             Enable performance profiling\n" ++
  "  tracing               Enable event tracing\n" ++
  "  config                Dump current configuration\n" ++
  "  shutdown              Request graceful shutdown\n"

/-- `argv[0]` is `NULL` if there are no arguments at all. -/
def printUsage (prog : Option CStr) : List UInt8 :=
  ascii "Usage: " ++ prog.elim (ascii "(null)") CStr.bytes ++ ascii usageText

def printPayload (resp : MgmtCommandResponse) : Option (List UInt8) :=
  if resp.payload[0] ≠ 0 then (readString resp.payload.toList).map (· ++ ascii "\n") else some []

def printResponse (module : CStr) (cmdType : UInt8) (resp : MgmtCommandResponse) :
    Option (List UInt8) :=
  let line := ascii "[" ++ module.bytes ++ ascii "] " ++ mgmtCommandStr cmdType ++ ascii " -> " ++
    mgmtResultStr resp.resultCode ++ ascii "\n"
  (printPayload resp).map (line ++ ·)

def refuse (text : List UInt8) : Outcome := ⟨1, [], text, some []⟩

/-- The end of `main`: the request is sent, and the response printed. -/
def exchange (env : Env) (module : CStr) (path : List UInt8) (cmdType : UInt8)
    (payload : List UInt8) : Outcome :=
  let req := mgmtRequestInit env.clock cmdType (some module) payload
  match sendCommand env path req with
  | (sent, none) =>
    ⟨1, sent, ascii "No response from " ++ module.bytes ++ ascii " (is it running?)\n", some []⟩
  | (sent, some resp) =>
    ⟨if resp.resultCode = MgmtResultCode.ok.code then 0 else 1, sent, [],
      printResponse module cmdType resp⟩

def main (env : Env) (argv : List CStr) : Outcome :=
  match argv with
  | _ :: module :: cmdStr :: args =>
    match moduleToPath module with
    | none => refuse (ascii "Unknown module: " ++ module.bytes ++ ascii "\n")
    | some path => match parseCommand cmdStr with
      | none => refuse (ascii "Unknown command: " ++ cmdStr.bytes ++ ascii "\n")
      | some cmdType => match commandPayload cmdType args with
        | .error text => refuse text
        | .ok payload => exchange env module path cmdType payload
  | _ => refuse (printUsage argv.head?)

/-! ## What is sent -/

theorem findName_mem {α : Type} {table : List (List UInt8 × α)} {s : CStr} {a : α}
    (h : findName table s = some a) : (s.bytes, a) ∈ table := by
  obtain ⟨⟨name, b⟩, hfind, rfl⟩ := Option.map_eq_some_iff.mp h
  have hname : s.bytes = name := by simpa using List.find?_some hfind
  rw [hname]
  exact List.mem_of_find?_eq_some hfind

theorem moduleToPath_cases {module : CStr} {path : List UInt8}
    (h : moduleToPath module = some path) :
    module.bytes ≠ [] ∧ module.bytes.length ≤ 63 ∧ path.length ≤ 107 ∧ ∀ b ∈ path, b ≠ 0 := by
  unfold moduleToPath at h
  split at h
  · rename_i hname
    obtain rfl := Option.some.inj h
    rw [hname, nonul_iff]
    decide
  · split at h
    · rename_i hname
      obtain rfl := Option.some.inj h
      rw [hname, nonul_iff]
      decide
    · split at h
      · rename_i hname
        obtain rfl := Option.some.inj h
        rw [hname, nonul_iff]
        decide
      · simp at h

theorem cstr_sunPath {path : List UInt8} (hlen : path.length ≤ 107) (hnonul : ∀ b ∈ path, b ≠ 0) :
    cstr (sunPath path).toList = path := by
  have hone : 108 - min 107 path.length = (107 - path.length) + 1 := by omega
  rw [sunPath, strncpy_zeroed _ (by decide), List.take_of_length_le hlen, hone, List.replicate_succ]
  exact cstr_append_nul hnonul _

theorem leNat_leBytes (n v : Nat) : leNat (leBytes n v) = v % 256 ^ n := by
  induction n generalizing v with
  | zero => simp [leBytes, leNat, Nat.mod_one]
  | succ n ih =>
    have hpow : 256 ^ (n + 1) = 256 * 256 ^ n := Nat.pow_succ'
    rw [leBytes, leNat, ih, hpow, Nat.mod_mul, UInt8.toNat_ofNat']

theorem leBytes_length (n v : Nat) : (leBytes n v).length = n := by
  induction n generalizing v with
  | zero => rfl
  | succ n ih => rw [leBytes, List.length_cons, ih]

theorem intBytes_length (size : Int32) : (intBytes size).length = 4 := leBytes_length _ _

theorem leNat_intBytes (size : Int32) : (UInt32.ofNat (leNat (intBytes size))).toInt32 = size := by
  have hlt := size.toUInt32.toNat_lt
  rw [intBytes, leNat_leBytes, Nat.mod_eq_of_lt (by omega), UInt32.ofNat_toNat]
  rfl

theorem payloadAsInt_intBytes (clock : Clock) (cmdType : UInt8) (module : Option CStr)
    (size : Int32) :
    payloadAsInt (mgmtRequestInit clock cmdType module (intBytes size)) = size.toInt := by
  have hlen := intBytes_length size
  have hcut : (intBytes size).take 512 = intBytes size := List.take_of_length_le (by omega)
  have htake : (mgmtRequestInit clock cmdType module (intBytes size)).payload.toList.take 4 =
      intBytes size := by
    rw [requestInit_payload, hcut]
    exact List.take_left' hlen
  rw [payloadAsInt, htake, leNat_intBytes]

/-- The payload is made from the argument that the command takes. -/
inductive Encodes (args : List CStr) : UInt8 → List UInt8 → Prop where
  | level {arg : CStr} {level : LogLevel} (harg : args.head? = some arg)
      (hname : (arg.bytes, level) ∈ logLevelTable) :
    Encodes args MgmtCommandType.setLogLevel.code [level.code]
  | size {arg : CStr} {v : Int} (harg : args.head? = some arg) (hnum : Numeral arg.bytes v)
      (hpos : 0 < v) (hmax : v ≤ intMax) :
    Encodes args MgmtCommandType.setBufferSize.code (intBytes (.ofInt v))
  | none {cmdType : UInt8} (hlevel : cmdType ≠ MgmtCommandType.setLogLevel.code)
      (hsize : cmdType ≠ MgmtCommandType.setBufferSize.code) :
    Encodes args cmdType []

theorem strtol_value {s : List UInt8} {v : Int} (hnum : Numeral s v) (hpos : 0 < v)
    (hmax : v ≤ intMax) : (strtol s).1 = v := by
  have hbound : intMax < longMax := by decide
  rw [strtol_numeral hnum]
  exact clamp_eq (by unfold longMin; omega) (by omega)

theorem accepted_numeral {s : List UInt8}
    (h : ¬ ((strtol s).2 ≠ [] ∨ (strtol s).1 ≤ 0 ∨ (strtol s).1 > intMax)) :
    ∃ v, Numeral s v ∧ 0 < v ∧ v ≤ intMax := by
  rw [not_or, not_or, not_not, Int.not_le, Int.not_lt] at h
  exact (strtol_accepts (by decide)).mp h

theorem commandPayload_encodes {cmdType : UInt8} {args : List CStr} {payload : List UInt8}
    (h : commandPayload cmdType args = .ok payload) : Encodes args cmdType payload := by
  unfold commandPayload at h
  split at h
  · rename_i hcmd
    split at h
    · simp at h
    · split at h
      · simp at h
      · rename_i arg rest level hlevel
        obtain ⟨l, hfound, rfl⟩ := Option.map_eq_some_iff.mp hlevel
        obtain rfl := Except.ok.inj h
        rw [hcmd]
        exact .level rfl (findName_mem hfound)
  · rename_i hnotLevel
    split at h
    · rename_i hcmd
      split at h
      · simp at h
      · rename_i arg rest
        dsimp only at h
        split at h
        · simp at h
        · rename_i haccept
          obtain ⟨v, hnum, hpos, hmax⟩ := accepted_numeral haccept
          obtain rfl := Except.ok.inj h
          rw [hcmd, strtol_value hnum hpos hmax]
          exact .size rfl hnum hpos hmax
    · rename_i hnotSize
      obtain rfl := Except.ok.inj h
      exact .none hnotLevel hnotSize

/-- What the server reads of a payload. -/
structure Decodes (args : List CStr) (req : MgmtCommandRequest) : Prop where
  level : req.cmdType = MgmtCommandType.setLogLevel.code → ∃ arg level, args.head? = some arg ∧
    (arg.bytes, level) ∈ logLevelTable ∧ req.payloadLen = 1 ∧ req.payload[0]? = some level.code
  size : req.cmdType = MgmtCommandType.setBufferSize.code → ∃ arg v, args.head? = some arg ∧
    Numeral arg.bytes v ∧ req.payloadLen = 4 ∧ payloadAsInt req = v
  other : req.cmdType ≠ MgmtCommandType.setLogLevel.code →
    req.cmdType ≠ MgmtCommandType.setBufferSize.code → req.payloadLen = 0

theorem Encodes.decodes {args : List CStr} {cmdType : UInt8} {payload : List UInt8}
    (h : Encodes args cmdType payload) (clock : Clock) (module : Option CStr) :
    Decodes args (mgmtRequestInit clock cmdType module payload) := by
  have hne : MgmtCommandType.setLogLevel.code ≠ MgmtCommandType.setBufferSize.code := by decide
  cases h with
  | @level arg level harg hname =>
    refine ⟨fun _ => ⟨arg, level, harg, hname, rfl, ?_⟩, fun h => absurd h hne,
      fun h => absurd rfl h⟩
    rw [Vector.getElem?_eq_getElem (by decide), requestInit_payload_get]
    rfl
  | @size arg v harg hnum hpos hmax =>
    refine ⟨fun h => absurd h hne.symm, fun _ => ⟨arg, v, harg, hnum, rfl, ?_⟩,
      fun _ h => absurd rfl h⟩
    rw [payloadAsInt_intBytes]
    unfold intMax at hmax
    exact Int32.toInt_ofInt_of_le (by omega) (by omega)
  | none hlevel hsize => exact ⟨fun h => absurd h hlevel, fun h => absurd h hsize, fun _ _ => rfl⟩

theorem main_eq {module cmdStr : CStr} {args : List CStr} {path payload : List UInt8}
    {cmdType : UInt8} (hpath : moduleToPath module = some path)
    (hcmd : parseCommand cmdStr = some cmdType)
    (hpayload : commandPayload cmdType args = .ok payload) (env : Env) (prog : CStr) :
    main env (prog :: module :: cmdStr :: args) = exchange env module path cmdType payload := by
  simp only [main, hpath, hcmd, hpayload]

theorem main_cases (env : Env) (argv : List CStr) :
    (∃ text, main env argv = refuse text) ∨
      ∃ prog module cmdStr args path cmdType payload, argv = prog :: module :: cmdStr :: args ∧
        moduleToPath module = some path ∧ parseCommand cmdStr = some cmdType ∧
        commandPayload cmdType args = .ok payload ∧
          main env argv = exchange env module path cmdType payload := by
  unfold main
  split
  · rename_i prog module cmdStr args
    split
    · exact Or.inl ⟨_, rfl⟩
    · rename_i path hpath
      split
      · exact Or.inl ⟨_, rfl⟩
      · rename_i cmdType hcmd
        split
        · exact Or.inl ⟨_, rfl⟩
        · rename_i payload hpayload
          exact Or.inr ⟨prog, module, cmdStr, args, path, cmdType, payload, rfl, hpath, hcmd,
            hpayload, rfl⟩
  · exact Or.inl ⟨_, rfl⟩

def Env.sends (env : Env) : Prop := env.socketOk = true ∧ env.bindOk = true ∧ env.sendOk = true

theorem exchange_sends {env : Env} (h : env.sends) (module : CStr) (path : List UInt8)
    (cmdType : UInt8) (payload : List UInt8) :
    (exchange env module path cmdType payload).sent =
      [(sunPath path, mgmtRequestInit env.clock cmdType (some module) payload)] := by
  obtain ⟨hsocket, hbind, hsend⟩ := h
  simp only [exchange, sendCommand, hsocket, hbind, hsend, Bool.and_self, if_true]
  split
  · rename_i heq
    exact (Prod.mk.inj heq).1.symm
  · rename_i heq
    exact (Prod.mk.inj heq).1.symm

theorem exchange_fails {env : Env} (h : ¬ env.sends) (module : CStr) (path : List UInt8)
    (cmdType : UInt8) (payload : List UInt8) :
    (exchange env module path cmdType payload).sent = [] ∧
      (exchange env module path cmdType payload).exit = 1 := by
  have hfails : (env.socketOk && env.bindOk && env.sendOk) = false := by
    rw [Bool.eq_false_iff]
    intro hall
    exact h (by simpa [Env.sends, and_assoc] using hall)
  simp only [exchange, sendCommand, hfails, Bool.false_eq_true, if_false, and_self]

/-- The request says what the arguments say. -/
structure Says (module cmdStr : CStr) (args : List CStr) (req : MgmtCommandRequest) : Prop where
  valid : mgmtRequestValidate req = true
  target : req.targetModule.toList = module.bytes ++ List.replicate (64 - module.bytes.length) 0
  command : ∃ type, (cmdStr.bytes, type) ∈ commandTable ∧ req.cmdType = type.code
  payload : Decodes args req

theorem request_says {module cmdStr : CStr} {args : List CStr} {path payload : List UInt8}
    {cmdType : UInt8} (hpath : moduleToPath module = some path)
    (hcmd : parseCommand cmdStr = some cmdType)
    (hpayload : commandPayload cmdType args = .ok payload) (clock : Clock) :
    Says module cmdStr args (mgmtRequestInit clock cmdType (some module) payload) := by
  obtain ⟨hname, hshort, -⟩ := moduleToPath_cases hpath
  obtain ⟨type, hfound, rfl⟩ := Option.map_eq_some_iff.mp hcmd
  have hbytes : nameBytes (some module) = module.bytes := rfl
  refine ⟨?_, ?_, ⟨type, findName_mem hfound, rfl⟩, (commandPayload_encodes hpayload).decodes _ _⟩
  · rw [requestInit_valid, hbytes]
    refine ⟨?_, hname⟩
    cases type <;> decide
  · rw [requestInit_target, hbytes, List.take_of_length_le hshort, Nat.min_eq_right hshort]

theorem bufsize_payload (arg : CStr) (args : List CStr) :
    (∃ payload, commandPayload MgmtCommandType.setBufferSize.code (arg :: args) = .ok payload) ↔
      ∃ v, Numeral arg.bytes v ∧ 1 ≤ v ∧ v ≤ intMax := by
  constructor
  · rintro ⟨payload, hpayload⟩
    obtain ⟨arg', v, harg, hnum, hpos, hmax⟩ : ∃ arg' v, (arg :: args).head? = some arg' ∧
        Numeral arg'.bytes v ∧
        0 < v ∧ v ≤ intMax := by
      generalize hcmd : MgmtCommandType.setBufferSize.code = cmdType at hpayload
      cases commandPayload_encodes hpayload with
      | level => simp [MgmtCommandType.code] at hcmd
      | size harg hnum hpos hmax => exact ⟨_, _, harg, hnum, hpos, hmax⟩
      | none _ hsize => exact absurd hcmd.symm hsize
    obtain rfl := Option.some.inj harg
    exact ⟨v, hnum, hpos, hmax⟩
  · rintro ⟨v, hnum, hpos, hmax⟩
    have hbound : intMax < longMax := by decide
    obtain ⟨hend, hlow, hhigh⟩ := (strtol_accepts (m := intMax) hbound).mpr ⟨v, hnum, hpos, hmax⟩
    refine ⟨intBytes (.ofInt (strtol arg.bytes).1), ?_⟩
    unfold commandPayload
    rw [if_neg (by decide), if_pos rfl]
    dsimp only
    rw [if_neg]
    rintro (hrest | hle | hgt)
    · exact hrest hend
    · omega
    · omega

/-- The program refuses its arguments, or fails before it has sent anything, or sends the one
request that they describe; and a size is sent exactly if it is a numeral in range. -/
theorem mgmtctl_sends (env : Env) (argv : List CStr) :
    let o := main env argv
    ((o.exit = 1 ∧ o.sent = []) ∨
      ∃ prog module cmdStr args dst req, argv = prog :: module :: cmdStr :: args ∧
        o.sent = [(dst, req)] ∧
        moduleToPath module = some (cstr dst.toList) ∧ Says module cmdStr args req) ∧
    ∀ prog module cmdStr arg rest, argv = prog :: module :: cmdStr :: arg :: rest →
      cmdStr.bytes = ascii "bufsize" →
      (o.sent ≠ [] ↔ env.sends ∧ (moduleToPath module).isSome ∧
        ∃ v, Numeral arg.bytes v ∧ 1 ≤ v ∧ v ≤ intMax) := by
  intro o
  constructor
  · rcases main_cases env argv with
      ⟨text, he⟩ | ⟨prog, module, cmdStr, args, path, cmdType, payload, hargv, hpath, hcmd,
        hpayload, he⟩
    · exact Or.inl (by simp [o, he, refuse])
    · by_cases hsends : env.sends
      · obtain ⟨-, -, hlen, hnonul⟩ := moduleToPath_cases hpath
        refine Or.inr ⟨prog, module, cmdStr, args, sunPath path, _, hargv, ?_, ?_,
          request_says hpath hcmd hpayload env.clock⟩
        · simp only [o, he, exchange_sends hsends]
        · rw [hpath, cstr_sunPath hlen hnonul]
      · obtain ⟨hnone, hexit⟩ := exchange_fails hsends module path cmdType payload
        exact Or.inl (by simp only [o, he, hnone, hexit, and_self])
  · rintro prog module cmdStr arg rest rfl hname
    have hparse : parseCommand cmdStr = some MgmtCommandType.setBufferSize.code := by
      simp only [parseCommand, findName, hname]
      rfl
    constructor
    · intro hsome
      rcases main_cases env (prog :: module :: cmdStr :: arg :: rest) with
        ⟨text, he⟩ | ⟨_, _, _, _, path, cmdType, payload, hargv, hpath, hcmd, hpayload, he⟩
      · exact absurd (by simp [o, he, refuse]) hsome
      · obtain ⟨rfl, rfl, rfl, rfl⟩ : _ ∧ _ ∧ _ ∧ _ := by simpa using hargv
        obtain rfl := Option.some.inj (hparse.symm.trans hcmd)
        refine ⟨?_, by simp [hpath], (bufsize_payload arg rest).mp ⟨payload, hpayload⟩⟩
        by_contra hfails
        exact hsome (by simp only [o, he, (exchange_fails hfails _ _ _ _).1])
    · rintro ⟨hsends, hmodule, hnumeral⟩
      obtain ⟨path, hpath⟩ := Option.isSome_iff_exists.mp hmodule
      obtain ⟨payload, hpayload⟩ := (bufsize_payload arg rest).mpr hnumeral
      simp [o, main_eq hpath hparse hpayload, exchange_sends hsends]

/-! ## What is printed -/

theorem printPayload_isSome (resp : MgmtCommandResponse) :
    (printPayload resp).isSome ↔ 0 ∈ resp.payload.toList := by
  unfold printPayload readString
  split
  · split <;> simp_all
  · rename_i hzero
    rw [ne_eq, not_not] at hzero
    simp only [Option.isSome_some, true_iff]
    rw [← hzero]
    simp

theorem printResponse_isSome (module : CStr) (cmdType : UInt8) (resp : MgmtCommandResponse) :
    (printResponse module cmdType resp).isSome ↔ 0 ∈ resp.payload.toList := by
  rw [← printPayload_isSome, printResponse, Option.isSome_map]

theorem main_stdout {env : Env} {argv : List CStr} {resp : MgmtCommandResponse}
    (hsent : (main env argv).sent ≠ []) (hreply : env.reply = some ⟨mgmtResponseSize, resp⟩) :
    ∃ module cmdType, (main env argv).stdout = printResponse module cmdType resp := by
  rcases main_cases env argv with
      ⟨text, he⟩ | ⟨_, module, _, _, path, cmdType, payload, -, -, -, -, he⟩
  · rw [he] at hsent
    exact absurd rfl hsent
  · by_cases hsends : env.sends
    · obtain ⟨hsocket, hbind, hsend⟩ := hsends
      refine ⟨module, cmdType, ?_⟩
      simp [he, exchange, sendCommand, hsocket, hbind, hsend, hreply]
    · rw [he] at hsent
      exact absurd (exchange_fails hsends module path cmdType payload).1 hsent

/-- A print stays inside the payload field exactly if the payload leaves room for a NUL or has one
itself. -/
theorem print_inside_iff {H X : Type} (clock : Clock) (reqId : UInt32) (result : UInt8)
    (module : Option CStr) (payload : Option (Nat → UInt8)) (len : UInt64) :
    let resp := mgmtResponseInit clock reqId result module (pointed payload len)
    let fits := (pointed payload len).length < 2048 ∨ 0 ∈ (pointed payload len).take 2048
    (0 ∈ resp.payload.toList ↔ fits) ∧
      ∀ (r : EventHandlerRegistry H X) (slot : Slot) (ret : Int) (env : Env) (argv : List CStr),
        env.reply = some ⟨mgmtResponseSize, (dispatchAccount r slot ret resp).2⟩ →
          (main env argv).sent ≠ [] →
          ((main env argv).stdout.isSome ↔ fits) := by
  intro resp fits
  have hends : 0 ∈ resp.payload.toList ↔ fits := responseInit_ends ..
  refine ⟨hends, ?_⟩
  intro r slot ret env argv hreply hsent
  obtain ⟨name, cmdType, hstdout⟩ := main_stdout hsent hreply
  rw [hstdout, printResponse_isSome, dispatchAccount_payload, hends]

/-- A response to a ping with 2048 letters and no NUL. -/
def fullResponse : MgmtCommandResponse :=
  mgmtResponseInit ⟨⟨5, 0⟩, 5⟩ 0 0 none (pointed (some fun _ => 97) 2048)

def pingEnv : Env := ⟨⟨⟨5, 0⟩, 5⟩, true, true, true, some ⟨mgmtResponseSize, fullResponse⟩⟩

theorem print_leaves_payload :
    0 ∉ fullResponse.payload.toList ∧
      (main pingEnv [.lit "mgmtctl", Program.viewer.name, .lit "ping"]).stdout = none := by
  have hnone : 0 ∉ fullResponse.payload.toList := by
    rw [fullResponse, responseInit_ends]
    rintro (hshort | hmem)
    · simp only [pointed, List.length_map, List.length_range] at hshort
      exact absurd hshort (by decide)
    · obtain ⟨i, -, hzero⟩ := List.mem_map.mp (List.mem_of_mem_take hmem)
      simp at hzero
  have hsent : (main pingEnv [.lit "mgmtctl", Program.viewer.name, .lit "ping"]).sent ≠ [] := by
    rw [main_eq rfl rfl rfl, exchange_sends ⟨rfl, rfl, rfl⟩]
    simp
  obtain ⟨module, cmdType, hstdout⟩ := main_stdout hsent rfl
  refine ⟨hnone, ?_⟩
  rw [hstdout, ← Option.not_isSome_iff_eq_none, printResponse_isSome]
  exact hnone

end StudyC.Ctl
