import StudyC.Ctl.Wire
import StudyC.Lib.Text.Json
import StudyC.Mgmt.Outcomes

/-!
# mgmtctl and a running program

A run of `mgmtctl` from its arguments to the terminal and its exit code. The request goes to the
management socket as bytes, `mgmt_socket_process_one` answers it with the handlers that the program
has registered, and the response comes back as bytes.

* `served_bindings`: whatever has arrived at the socket, the registry still binds the three
  commands.
* `session_answers`: what the terminal shows for each command.
-/

open CString Decimal KeyedList Runs

namespace StudyC.Ctl.Session

open Mgmt

/-- The paths of `mgmt_paths.h`, which each program creates its management socket at. -/
def socketPath : Program → List UInt8
  | .collector => ascii "/tmp/studyc_collector.sock"
  | .router => ascii "/tmp/studyc_router.sock"
  | .viewer => ascii "/tmp/studyc_viewer.sock"

variable {X : Type} [Zero X]

/-! ## The server -/

/-- One call of `mgmt_socket_process_one`. -/
structure Round where
  clock : Clock
  sock : MgmtSocket
  timeoutMs : Int
  env : SocketEnv

def serveStep (startTime : X → Int64) (r : EventHandlerRegistry Handler X) (round : Round) :
    Option (EventHandlerRegistry Handler X) :=
  some (mgmtSocketProcessOne (programCode startTime) round.clock round.sock round.timeoutMs
    round.env r).registry

/-- The registry after `handler_registry_init` and the registration of the program's handlers. -/
def started (p : Program) (ctx : X) : EventHandlerRegistry Handler X :=
  (mgmtRegister p (handlerRegistryInit true .static).2 ctx).2

def bindings (p : Program) (ctx : X) : List (Key × (Handler × X)) :=
  [.ping, .getStatus, .shutdown].map fun c => ((Command.code c, p.name.bytes), (.of p c, ctx))

omit [Zero X] in
theorem keys_of_bindings {r : EventHandlerRegistry Handler X} {bs : List (Key × (Handler × X))}
    (hr : r.entries.live.map EventHandlerEntry.binding = bs) :
    r.entries.live.map EventHandlerEntry.key = bs.map Prod.fst := by
  rw [← hr, List.map_map]
  rfl

omit [Zero X] in
theorem register_bindings {r : EventHandlerRegistry Handler X} {bs : List (Key × (Handler × X))}
    (hr : r.entries.live.map EventHandlerEntry.binding = bs) (hroom : bs.length < maxEventHandlers)
    {m : CStr} {c : UInt8} {h : Handler} {x : X} (hm : m.bytes.length < mgmtModuleNameSize)
    (hok : Registrable c h) (hnew : (c, m.bytes) ∉ bs.map Prod.fst) :
    (handlerRegister r (some m) c h x).1 = 0 ∧
      (handlerRegister r (some m) c h x).2.entries.live.map EventHandlerEntry.binding =
        bs ++ [((c, m.bytes), (h, x))] := by
  have hkeys := keys_of_bindings hr
  have hplace : r.place (c, m.bytes) = none := by
    rw [EventHandlerRegistry.place, position_eq_none, hkeys]
    exact hnew
  have hcount : r.entries.count = bs.length := by
    rw [← SlotTable.live_length, ← hr, List.length_map]
  rcases register_live (x := x) hm hok with
      ⟨i, hi, -⟩ | ⟨-, -, hret, e, hkey, htarget, -, -, hlive⟩ | ⟨-, hfull, -⟩
  · rw [hplace] at hi
    simp at hi
  · refine ⟨hret, ?_⟩
    rw [hlive, List.map_append, hr, List.map_singleton, EventHandlerEntry.binding, hkey, htarget]
  · omega

theorem started_bindings (p : Program) (ctx : X) :
    (started p ctx).entries.live.map EventHandlerEntry.binding = bindings p ctx := by
  have hname : p.name.bytes.length < mgmtModuleNameSize := by cases p <;> decide
  have hok : ∀ c : Command, Registrable c.code (Handler.of p c) := by
    intro c
    cases c <;> exact ⟨by simp [OfNat.ofNat, Zero.zero], by decide⟩
  have hempty :
      (handlerRegistryInit true (.static : EventHandlerRegistry Handler X)).2.entries.live.map
      EventHandlerEntry.binding = [] := rfl
  obtain ⟨hping, hping'⟩ :=
    register_bindings hempty (by simp [maxEventHandlers]) (x := ctx) hname (hok .ping) (by simp)
  obtain ⟨hstatus, hstatus'⟩ :=
    register_bindings hping' (by simp [maxEventHandlers]) (x := ctx) hname (hok .getStatus)
      (by simp [Command.code])
  obtain ⟨-, hshutdown⟩ :=
    register_bindings hstatus' (by simp [maxEventHandlers]) (x := ctx) hname (hok .shutdown)
      (by simp [Command.code])
  rw [started, mgmtRegister]
  simp only [hping, hstatus, lt_irrefl, if_false]
  split <;> exact hshutdown

omit [Zero X] in
theorem process_registry (code : HandlerCode Handler X) (round : Round)
    (r : EventHandlerRegistry Handler X) :
    let o := mgmtSocketProcessOne code round.clock round.sock round.timeoutMs round.env r
    o.registry = r ∨ ∃ req, o.registry =
      (handlerDispatch code round.clock r req .zero).registry := by
  unfold mgmtSocketProcessOne
  split
  · exact .inl rfl
  · split
    · exact .inl rfl
    · split
      · exact .inl rfl
      · rename_i d hd
        refine .inr ⟨requestOfBytes (memcpy round.env.stale d), ?_⟩
        dsimp only
        rw [apply_ite ProcessOutcome.registry, ite_self]

theorem served_bindings {p : Program} {startTime : X → Int64} {ctx : X}
    {r : EventHandlerRegistry Handler X} (h : Reachable (serveStep startTime) (started p ctx) r) :
    r.entries.live.map EventHandlerEntry.binding = bindings p ctx := by
  refine h.invariant (I := fun r => r.entries.live.map EventHandlerEntry.binding = bindings p ctx)
    (started_bindings p ctx) ?_
  intro r round r' hr hs
  obtain rfl := Option.some.inj hs
  rcases process_registry (programCode startTime) round r with he | ⟨req, he⟩
  · rw [he, hr]
  · rw [he, dispatch_bindings, hr]

/-! ## The answers -/

section
variable {p : Program} {startTime : X → Int64} {ctx : X} {r : EventHandlerRegistry Handler X}
  (hr : r.entries.live.map EventHandlerEntry.binding = bindings p ctx)
include hr

omit [Zero X] in
theorem place_command (c : Command) : r.place (c.code, p.name.bytes) ≠ none := by
  rw [Ne, EventHandlerRegistry.place, position_eq_none, not_not, keys_of_bindings hr]
  cases c <;> simp [bindings]

omit [Zero X] in
theorem place_other {code : UInt8} (hcode : ∀ c : Command, code ≠ c.code) :
    r.place (code, p.name.bytes) = none := by
  rw [EventHandlerRegistry.place, position_eq_none, keys_of_bindings hr]
  simp [bindings, hcode]

omit [Zero X] in
theorem target_of_key {e : EventHandlerEntry Handler X} (he : e ∈ r.entries.live) {c : Command}
    (hkey : e.key = (c.code, p.name.bytes)) : e.handler = .of p c ∧ e.context = ctx := by
  have hmem : e.binding ∈ bindings p ctx := by
    rw [← hr]
    exact List.mem_map_of_mem he
  obtain ⟨c', -, hb⟩ := List.mem_map.mp hmem
  obtain ⟨hk, ht⟩ := Prod.mk.inj hb
  rw [hkey, Prod.mk.injEq] at hk
  obtain rfl : c' = c := by
    have hcode := hk.1
    cases c <;> cases c' <;> first | rfl | simp [Command.code] at hcode
  exact ⟨(congrArg Prod.fst ht).symm, (congrArg Prod.snd ht).symm⟩

end

/-- The text that a handler answers with. -/
def answerText (uptime : Int) : Command → List UInt8
  | .ping => ascii "pong"
  | .getStatus => ascii ("\x7b\"status\":\"running\",\"uptime_s\":" ++ toString uptime ++ "\x7d")
  | .shutdown => ascii "shutdown initiated"

theorem ascii_append (s s' : String) : ascii (s ++ s') = ascii s ++ ascii s' := by
  simp [ascii]

theorem answerText_status (uptime : Int) :
    answerText uptime .getStatus =
      ascii "\x7b\"status\":\"running\",\"uptime_s\":" ++ signed uptime ++ ascii "\x7d" := by
  rw [answerText, ascii_append, ascii_append]
  rfl

theorem answerText_nonul (uptime : Int) (c : Command) : ∀ b ∈ answerText uptime c, b ≠ 0 := by
  cases c with
  | ping => exact (CStr.lit "pong").nonul
  | getStatus =>
    rw [answerText_status]
    intro b hb
    rcases List.mem_append.mp hb with hb | hb
    · rcases List.mem_append.mp hb with hb | hb
      · exact (CStr.lit "\x7b\"status\":\"running\",\"uptime_s\":").nonul b hb
      · exact signed_nonul uptime b hb
    · exact (CStr.lit "\x7d").nonul b hb
  | shutdown => exact (CStr.lit "shutdown initiated").nonul

theorem answerText_length (uptime : Int64) (c : Command) :
    1 ≤ (answerText uptime.toInt c).length ∧ (answerText uptime.toInt c).length ≤ 255 := by
  -- no uptime makes the text too long for the buffer of 256 bytes
  cases c with
  | ping => exact (by decide : 1 ≤ (ascii "pong").length ∧ (ascii "pong").length ≤ 255)
  | getStatus =>
    have hhead : (ascii "\x7b\"status\":\"running\",\"uptime_s\":").length = 31 := by decide
    have htail : (ascii "\x7d").length = 1 := by decide
    have hlow := uptime.le_toInt
    have hhigh := uptime.toInt_lt
    have hnumber : (signed uptime.toInt).length ≤ 20 :=
      signed_length_le (k := 19) (by decide) (by omega)
    rw [answerText_status, List.length_append, List.length_append, hhead, htail]
    omega
  | shutdown => exact (by decide : 1 ≤ (ascii "shutdown initiated").length ∧
      (ascii "shutdown initiated").length ≤ 255)

omit [Zero X] in
theorem programCode_answers (startTime : X → Int64) (p : Program) (c : Command) (clock : Clock)
    (req : MgmtCommandRequest) (resp : MgmtCommandResponse) (ctx : X) :
    programCode startTime (.of p c) clock req resp ctx =
      (0, mgmtResponseInit clock req.requestId MgmtResultCode.ok.code (some p.name)
        (answerText (clock.time - startTime ctx).toInt c ++ [0])) := by
  cases c with
  | ping | shutdown => rfl
  | getStatus =>
    have hcut := (answerText_length (clock.time - startTime ctx) .getStatus).2
    rw [← List.take_of_length_le hcut]
    rfl

open Json in
theorem parse_status (uptime : Int) :
    parse (answerText uptime .getStatus) =
      some (.obj [(ascii "status", .str (ascii "running")),
        (ascii "uptime_s", .num uptime 0)]) := by
  have htext : answerText uptime .getStatus =
      braces [key (ascii "status") ++ quoted (ascii "running"), key (ascii "uptime_s") ++
      signed uptime] := by
    rw [answerText_status, braces, commas_cons, commas_singleton]
    have hhead : ascii "\x7b\"status\":\"running\",\"uptime_s\":" =
        123 :: (key (ascii "status") ++ quoted (ascii "running") ++
        44 :: key (ascii "uptime_s")) := by decide
    rw [hhead]
    simp [ascii]
  have hword : Word (ascii "running") := by decide
  apply parse_of_parses
  rw [htext]
  apply parses_obj
  refine .cons ?_ (.cons ?_ .nil)
  · exact Word.member (by decide) (parses_quoted hword.plain hword.utf8 _)
  · exact Word.member (by decide) (parses_signed _ uptime)

theorem printPayload_text {resp : MgmtCommandResponse} {text rest : List UInt8} (hne : text ≠ [])
    (hnonul : ∀ b ∈ text, b ≠ 0) (h : resp.payload.toList = text ++ 0 :: rest) :
    printPayload resp = some (text ++ ascii "\n") := by
  obtain ⟨b, text', rfl⟩ := List.exists_cons_of_ne_nil hne
  have hfirst : resp.payload[0] = b := by
    have hget : resp.payload.toList[0]? = some b := by rw [h]; rfl
    rw [Vector.getElem?_toList, Vector.getElem?_eq_getElem (by decide)] at hget
    exact Option.some.inj hget
  have hread : readString resp.payload.toList = some (b :: text') := by
    rw [h, readString, if_pos (by simp), cstr_append_nul hnonul]
  rw [printPayload, hfirst, if_pos (hnonul b (.head _)), hread, Option.map_some]

/-! ## One run of mgmtctl -/

/-- What the machine does during a run in which no system call of `mgmtctl` fails. -/
structure World where
  clientClock : Clock
  serverClock : Clock
  sock : MgmtSocket
  timeoutMs : Int
  sockoptOk : Bool
  requestStale : Vector UInt8 mgmtRequestSize
  responseStale : Vector UInt8 mgmtResponseSize

def World.env (w : World) (reply : Option Datagram) : Env :=
  ⟨w.clientClock, true, true, true, reply⟩

/-- What the program answers to a request sent to a path. -/
def answerTo (p : Program) (startTime : X → Int64) (w : World) (r : EventHandlerRegistry Handler X)
    (sent : SunPath × MgmtCommandRequest) : Option Datagram :=
  if cstr sent.1.toList = socketPath p then
    let o := mgmtSocketProcessOne (programCode startTime) w.serverClock w.sock w.timeoutMs
      ⟨w.sockoptOk, some (requestCodec.encode sent.2), w.requestStale, true⟩ r
    o.sent.map fun resp =>
      ⟨mgmtResponseSize, responseOfBytes (memcpy w.responseStale (responseCodec.encode resp))⟩
  else none

def session (p : Program) (startTime : X → Int64) (w : World) (r : EventHandlerRegistry Handler X)
    (argv : List CStr) : Outcome :=
  let request := (main (w.env none) argv).sent.head?
  main (w.env (request.bind (answerTo p startTime w r))) argv

def handledBy : MgmtCommandType → Option Command
  | .ping => some .ping
  | .getStatus => some .getStatus
  | .shutdown => some .shutdown
  | _ => none

/-- The exit code and the terminal. -/
def shows (p : Program) (uptime : Int) (type : MgmtCommandType) : Int × List UInt8 :=
  let head := ascii "[" ++ p.name.bytes ++ ascii "] " ++ mgmtCommandStr type.code ++ ascii " -> "
  match handledBy type with
  | some c => (0, head ++ ascii "OK\n" ++ answerText uptime c ++ ascii "\n")
  | none => (1, head ++ ascii "MODULE_NOT_FOUND\n")

theorem handledBy_code {type : MgmtCommandType} {c : Command} (h : handledBy type = some c) :
    type.code = c.code := by
  cases type <;> simp only [handledBy, Option.some.injEq, reduceCtorEq] at h <;> subst h <;> rfl

theorem handledBy_none {type : MgmtCommandType} (h : handledBy type = none) (c : Command) :
    type.code ≠ c.code := by
  cases type <;> simp only [handledBy, reduceCtorEq] at h <;> cases c <;> decide

section
variable {p : Program} {ctx : X} {r : EventHandlerRegistry Handler X}
  (hr : r.entries.live.map EventHandlerEntry.binding = bindings p ctx) (startTime : X → Int64)
    (clock : Clock)
  {req : MgmtCommandRequest} (hvalid : mgmtRequestValidate req = true)
include hr hvalid

omit [Zero X] in
theorem dispatch_handled {c : Command} (hkey : req.key = (c.code, p.name.bytes)) :
    (handlerDispatch (programCode startTime) clock r req .zero).resp.resultCode =
      MgmtResultCode.ok.code ∧
      ∃ rest, (handlerDispatch (programCode startTime) clock r req .zero).resp.payload.toList =
        answerText (clock.time - startTime ctx).toInt c ++ 0 :: rest := by
  rcases handlerDispatch_cases (programCode startTime) clock r req .zero with
    ⟨hv, -⟩ | ⟨-, hp, -⟩ | ⟨-, slot, e, hp, hlive, he⟩
  · simp [hvalid] at hv
  · rw [hkey] at hp
    exact absurd hp (place_command hr c)
  · obtain ⟨e', he', hk, -⟩ := position_eq_some EventHandlerEntry.key EventHandlerEntry.key hp
    obtain rfl := Option.some.inj (hlive.symm.trans he')
    obtain ⟨hhandler, hcontext⟩ := target_of_key hr (List.mem_of_getElem? hlive) (hk.trans hkey)
    rw [he]
    simp only [hhandler, hcontext, programCode_answers, dispatchAccount_payload,
      Outcomes.account_code]
    refine ⟨rfl, ?_⟩
    have hlen := (answerText_length (clock.time - startTime ctx) c).2
    rw [responseInit_payload,
      List.take_of_length_le (by rw [List.length_append, List.length_singleton]; omega),
      List.append_assoc]
    exact ⟨_, rfl⟩

omit [Zero X] in
theorem dispatch_unhandled (htarget : req.key.2 = p.name.bytes)
    (hother : ∀ c : Command, req.key.1 ≠ c.code) :
    (handlerDispatch (programCode startTime) clock r req .zero).resp =
      { MgmtCommandResponse.zero with resultCode := MgmtResultCode.moduleNotFound.code } := by
  have hplace : r.place req.key = none := by
    have hnone := place_other hr hother
    rwa [← htarget] at hnone
  rcases handlerDispatch_cases (programCode startTime) clock r req .zero with
    ⟨hv, -⟩ | ⟨-, -, he⟩ | ⟨-, slot, e, hp, -⟩
  · simp [hvalid] at hv
  · rw [he]
  · rw [hplace] at hp
    simp at hp

end

theorem moduleToPath_program (p : Program) : moduleToPath p.name = some (socketPath p) := by
  cases p <;> rfl

theorem exchange_reply (w : World) (module : CStr) (path : List UInt8) (cmdType : UInt8)
    (payload : List UInt8) (resp : MgmtCommandResponse) :
    let o := exchange (w.env (some ⟨mgmtResponseSize, resp⟩)) module path cmdType payload
    o.exit = (if resp.resultCode = MgmtResultCode.ok.code then 0 else 1) ∧ o.stderr = [] ∧
      o.stdout = printResponse module cmdType resp := by
  simp [exchange, sendCommand, World.env]

theorem request_key (p : Program) (clock : Clock) (cmdType : UInt8) (payload : List UInt8) :
    (mgmtRequestInit clock cmdType (some p.name) payload).key = (cmdType, p.name.bytes) := by
  have hshort : (nameBytes (some p.name)).length ≤ 63 :=
    (moduleToPath_cases (moduleToPath_program p)).2.1
  rw [MgmtCommandRequest.key, requestInit_name _ _ _ _ hshort]
  rfl

omit [Zero X] in
theorem session_eq (p : Program) (startTime : X → Int64) (r : EventHandlerRegistry Handler X)
    {w : World} (hopen : Receives w.sock w.timeoutMs w.sockoptOk) (prog : CStr) {cmdStr : CStr}
    {args : List CStr} {cmdType : UInt8} (hparse : parseCommand cmdStr = some cmdType)
    {payload : List UInt8} (hpayload : commandPayload cmdType args = .ok payload) :
    let req := mgmtRequestInit w.clientClock cmdType (some p.name) payload
    let resp := (handlerDispatch (programCode startTime) w.serverClock r req .zero).resp
    session p startTime w r (prog :: p.name :: cmdStr :: args) =
      exchange (w.env (some ⟨mgmtResponseSize, resp⟩)) p.name (socketPath p) cmdType payload := by
  intro req resp
  have hmain := fun env => main_eq (moduleToPath_program p) hparse hpayload env prog
  obtain ⟨-, -, hlen, hnonul⟩ := moduleToPath_cases (moduleToPath_program p)
  have hsent : (main (w.env none) (prog :: p.name :: cmdStr :: args)).sent.head? =
      some (sunPath (socketPath p), req) := by
    rw [hmain, exchange_sends ⟨rfl, rfl, rfl⟩]
    rfl
  have hanswer : answerTo p startTime w r (sunPath (socketPath p), req) =
      some ⟨mgmtResponseSize, resp⟩ := by
    simp only [answerTo, cstr_sunPath hlen hnonul, if_true, (process_answer ..).2, if_pos hopen,
      request_received, Option.map_some, response_received, resp]
  rw [session, hsent, Option.bind_some, hanswer, hmain]

theorem printResponse_zero (module : CStr) (cmdType result : UInt8) :
    printResponse module cmdType { MgmtCommandResponse.zero with resultCode := result } =
      some (ascii "[" ++ module.bytes ++ ascii "] " ++ mgmtCommandStr cmdType ++ ascii " -> " ++
        mgmtResultStr result ++
        ascii "\n") := by
  simp [printResponse, printPayload, MgmtCommandResponse.zero]

/-- Whatever the program has been sent before, each command of `mgmtctl` shows the answer of the
program's handler, or that there is none for it, and the status is a JSON object with the uptime. -/
theorem session_answers (p : Program) (startTime : X → Int64) (ctx : X)
    (r : EventHandlerRegistry Handler X)
    (hserved : Reachable (serveStep startTime) (started p ctx) r) (w : World)
    (hopen : Receives w.sock w.timeoutMs w.sockoptOk) (prog cmdStr : CStr) (args : List CStr)
    (type : MgmtCommandType) (htype : findName commandTable cmdStr = some type)
    (payload : List UInt8) (hpayload : commandPayload type.code args = .ok payload) :
    let uptime := (w.serverClock.time - startTime ctx).toInt
    let o := session p startTime w r (prog :: p.name :: cmdStr :: args)
    o.exit = (shows p uptime type).1 ∧ o.stderr = [] ∧ o.stdout = some (shows p uptime type).2 ∧
      Json.parse (answerText uptime .getStatus) =
        some (.obj [(ascii "status", .str (ascii "running")),
          (ascii "uptime_s", .num uptime 0)]) := by
  intro uptime o
  have hr := served_bindings hserved
  have hparse : parseCommand cmdStr = some type.code := by rw [parseCommand, htype, Option.map_some]
  have hsays := request_says (moduleToPath_program p) hparse hpayload w.clientClock
  have hvalid := hsays.valid
  have hkey := request_key p w.clientClock type.code payload
  have ho : o = _ := session_eq p startTime r hopen prog hparse hpayload
  obtain ⟨hexit, hstderr, hstdout⟩ := exchange_reply w p.name (socketPath p) type.code payload
    (handlerDispatch (programCode startTime) w.serverClock r
      (mgmtRequestInit w.clientClock type.code (some p.name) payload) .zero).resp
  rw [ho, hexit, hstderr, hstdout]
  unfold shows
  cases hhandled : handledBy type with
  | some c =>
    have hcommand := hkey.trans (by rw [handledBy_code hhandled])
    obtain ⟨hcode, rest, htext⟩ := dispatch_handled hr startTime w.serverClock hvalid hcommand
    have hne : answerText uptime c ≠ [] := List.ne_nil_of_length_pos (answerText_length _ c).1
    refine ⟨if_pos hcode, rfl, ?_, parse_status uptime⟩
    rw [printResponse, printPayload_text hne (answerText_nonul uptime c) htext, hcode]
    simp [mgmtResultStr, MgmtResultCode.code, ascii]
  | none =>
    have hother : ∀ c : Command,
        (mgmtRequestInit w.clientClock type.code (some p.name) payload).key.1 ≠ c.code := by
      rw [hkey]
      exact handledBy_none hhandled
    rw [dispatch_unhandled hr startTime w.serverClock hvalid (by rw [hkey]) hother]
    refine ⟨rfl, rfl, ?_, parse_status uptime⟩
    rw [printResponse_zero]
    simp [mgmtResultStr, MgmtResultCode.code, ascii]

/-- A minute after the start of the program, with something else in both buffers. -/
def minuteLater : World :=
  ⟨⟨⟨90, 0⟩, 90⟩, ⟨⟨91, 0⟩, 91⟩, ⟨3, 0, 0, 0⟩, 1000, true, .replicate _ 7, .replicate _ 7⟩

theorem status_of_router :
    let uptime := (minuteLater.serverClock.time - 31).toInt
    let o := session .router (fun _ : Pointer => 31) minuteLater (started .router ⟨1⟩)
      [.lit "mgmtctl", Program.router.name, .lit "status"]
    uptime = 60 ∧ o.exit = (shows .router uptime .getStatus).1 ∧ o.stderr = [] ∧
      o.stdout = some (shows .router uptime .getStatus).2 ∧
      Json.parse (answerText uptime .getStatus) =
        some (.obj [(ascii "status", .str (ascii "running")),
          (ascii "uptime_s", .num uptime 0)]) := by
  have htype : findName commandTable (.lit "status") = some MgmtCommandType.getStatus := by decide
  have hserved : Reachable (serveStep fun _ : Pointer => 31) (started .router ⟨1⟩)
      (started .router ⟨1⟩) := ⟨[], rfl⟩
  have hopen : Receives minuteLater.sock minuteLater.timeoutMs minuteLater.sockoptOk := by decide
  have hpayload : commandPayload MgmtCommandType.getStatus.code [] = .ok [] := rfl
  have hshown :=
    session_answers (X := Pointer) .router (fun _ => 31) ⟨1⟩ _ hserved minuteLater hopen
    (.lit "mgmtctl") _ [] _ htype [] hpayload
  exact ⟨by decide, hshown⟩

end StudyC.Ctl.Session
