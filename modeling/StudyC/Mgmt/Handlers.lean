import StudyC.Mgmt.Socket

/-!
# The handlers of the three programs

`mgmt_handlers.c` of Collector, Router and Viewer: ping, status and shutdown, the same in the three
programs up to the name of the module. What a shutdown handler does besides answering belongs to the
models of the programs.

* `reply_echoes_iff`: which replies carry the id of their request.
-/

open CString KeyedList

namespace StudyC.Mgmt

inductive Program where
  | collector
  | router
  | viewer
  deriving DecidableEq

def Program.name : Program → CStr
  | .collector => .lit "collector"
  | .router => Mgmt.router
  | .viewer => .lit "viewer"

/-- The commands that the programs register a handler for. -/
inductive Command where
  | ping
  | getStatus
  | shutdown
  deriving DecidableEq

def Command.code : Command → UInt8
  | .ping => 0
  | .getStatus => 2
  | .shutdown => 7

/-- A pointer to one of the static handlers, or NULL. -/
inductive Handler where
  | null
  | of (program : Program) (command : Command)
  deriving DecidableEq

instance : Zero Handler := ⟨.null⟩

/-- The text is formatted into a buffer of 256 bytes. -/
def handlerGetStatus (module : CStr) (startTime : Int64) (clock : Clock)
    (req : MgmtCommandRequest) : Int × MgmtCommandResponse :=
  let uptime := clock.time - startTime
  let buf :=
    (ascii ("\x7b\"status\":\"running\",\"uptime_s\":" ++ toString uptime.toInt ++ "\x7d")).take 255
  (0, mgmtResponseInit clock req.requestId MgmtResultCode.ok.code (some module) (buf ++ [0]))

def handlerShutdown (module : CStr) (clock : Clock) (req : MgmtCommandRequest) :
    Int × MgmtCommandResponse :=
  (0, mgmtResponseInit clock req.requestId MgmtResultCode.ok.code (some module)
    (ascii "shutdown initiated" ++ [0]))

variable {H X : Type}

/-- What the pointers point to; `startTime` reads the field of the context. -/
def programCode (startTime : X → Int64) : HandlerCode Handler X
  -- not reached: `handler_register` refuses NULL
  | .null, _, _, resp, _ => (-1, resp)
  | .of p .ping, clock, req, _, _ => handlerPing p.name clock req
  | .of p .getStatus, clock, req, _, ctx => handlerGetStatus p.name (startTime ctx) clock req
  | .of p .shutdown, clock, req, _, _ => handlerShutdown p.name clock req

def mgmtRegister (p : Program) (r : EventHandlerRegistry Handler X) (ctx : X) :
    Int × EventHandlerRegistry Handler X :=
  let ping := handlerRegister r (some p.name) Command.ping.code (.of p .ping) ctx
  if ping.1 < 0 then (-1, ping.2)
  else
    let status := handlerRegister ping.2 (some p.name) Command.getStatus.code (.of p .getStatus) ctx
    if status.1 < 0 then (-1, status.2)
    else
      let shutdown :=
        handlerRegister status.2 (some p.name) Command.shutdown.code (.of p .shutdown) ctx
      if shutdown.1 < 0 then (-1, shutdown.2) else (0, shutdown.2)

def collectorMgmtRegister (r : EventHandlerRegistry Handler X) (ctx : X) :=
  mgmtRegister .collector r ctx
def routerMgmtRegister (r : EventHandlerRegistry Handler X) (ctx : X) := mgmtRegister .router r ctx
def viewerMgmtRegister (r : EventHandlerRegistry Handler X) (ctx : X) := mgmtRegister .viewer r ctx

theorem programCode_of (startTime : X → Int64) (p : Program) (c : Command) (clock : Clock)
    (req : MgmtCommandRequest) (resp : MgmtCommandResponse) (ctx : X) :
    ∃ payload, programCode startTime (.of p c) clock req resp ctx =
      (0, mgmtResponseInit clock req.requestId MgmtResultCode.ok.code (some p.name) payload) := by
  cases c with
  | ping | getStatus | shutdown => exact ⟨_, rfl⟩

/-- The request is well formed, and an entry of the registry answers to its command and target. -/
structure Addressed (r : EventHandlerRegistry H X) (req : MgmtCommandRequest) : Prop where
  command : req.cmdType.toNat < mgmtCmdMax
  target : req.targetModule[0] ≠ 0
  payload : req.payloadLen.toNat ≤ mgmtPayloadRequestSize
  registered : ∃ e ∈ r.entries.live, e.key = req.key

theorem addressed_iff (r : EventHandlerRegistry H X) (req : MgmtCommandRequest) :
    Addressed r req ↔ mgmtRequestValidate req = true ∧ r.place req.key ≠ none := by
  have hplace : r.place req.key ≠ none ↔ ∃ e ∈ r.entries.live, e.key = req.key := by
    rw [Ne, EventHandlerRegistry.place, position_eq_none, not_not, List.mem_map]
  rw [validate_iff, hplace]
  constructor
  · rintro ⟨hcommand, htarget, hpayload, hregistered⟩
    exact ⟨⟨hcommand, htarget, hpayload⟩, hregistered⟩
  · rintro ⟨⟨hcommand, htarget, hpayload⟩, hregistered⟩
    exact ⟨hcommand, htarget, hpayload, hregistered⟩

/-! ## The id of a reply -/

/-- Handlers that leave the id as dispatch put it into the response, or put it there themselves.
They may fail. -/
structure EchoingCode (H X : Type) where
  run : HandlerCode H X
  echoes : ∀ h clock req resp ctx, resp.requestId = req.requestId →
    (run h clock req resp ctx).2.requestId = req.requestId

def programHandlers (startTime : X → Int64) : EchoingCode Handler X where
  run := programCode startTime
  echoes h clock req resp ctx hid := by
    cases h with
    | null => exact hid
    | of p c =>
      obtain ⟨payload, he⟩ := programCode_of startTime p c clock req resp ctx
      rw [he]
      rfl

theorem dispatch_requestId (code : EchoingCode H X) (clock : Clock) (r : EventHandlerRegistry H X)
    (req : MgmtCommandRequest) (resp : MgmtCommandResponse) :
    (handlerDispatch code.run clock r req resp).resp.requestId =
      if mgmtRequestValidate req = true ∧ r.place req.key ≠ none then req.requestId
      else resp.requestId := by
  rcases handlerDispatch_cases code.run clock r req resp with
    ⟨hv, he⟩ | ⟨-, hp, he⟩ | ⟨hv, slot, e, hp, -, he⟩
  · rw [he, if_neg (by simp [hv])]
  · rw [he, if_neg (by simp [hp])]
  · rw [he, if_pos ⟨hv, by simp [hp]⟩]
    obtain ⟨result, hresp⟩ := dispatchAccount_resp r slot
      (code.run e.handler clock req (prepareResponse req resp) e.context).1
      (code.run e.handler clock req (prepareResponse req resp) e.context).2
    simp only [hresp]
    exact code.echoes _ _ _ _ _ rfl

/-- Every reply to the request in the datagram carries its id. -/
def EchoesId (b : Vector UInt8 mgmtRequestSize) (r : EventHandlerRegistry H X) : Prop :=
  ∀ (code : EchoingCode H X) clock sock timeoutMs sockoptOk stale sendOk resp,
    (mgmtSocketProcessOne code.run clock sock timeoutMs
        ⟨sockoptOk, some b.toList, stale, sendOk⟩ r).sent = some resp →
      resp.requestId = (requestOfBytes b).requestId

/-- The two early returns of dispatch leave the id at zero: a reply to an invalid request, or to one
that no handler is registered for, carries its id only if the id is zero. -/
theorem reply_echoes_iff (b : Vector UInt8 mgmtRequestSize) (r : EventHandlerRegistry H X) :
    EchoesId b r ↔ (requestOfBytes b).requestId = 0 ∨ Addressed r (requestOfBytes b) := by
  rw [addressed_iff]
  have hsent := fun (code : EchoingCode H X) clock sock timeoutMs sockoptOk sendOk stale =>
    (process_answer code.run clock sock timeoutMs sockoptOk sendOk b.toList r stale).2
  simp only [memcpy_vector] at hsent
  constructor
  · intro hecho
    by_contra hcond
    rw [not_or] at hcond
    have hid := hecho ⟨fun _ _ _ resp _ => (0, resp), fun _ _ _ _ _ hid => hid⟩ ⟨⟨0, 0⟩, 0⟩
      ⟨3, 0, 0, 0⟩ 0 true
      (.replicate _ 0) true _ ((hsent _ _ _ _ _ _ _).trans (if_pos (by decide)))
    rw [dispatch_requestId, if_neg hcond.2] at hid
    exact hcond.1 hid.symm
  · intro hcond code clock sock timeoutMs sockoptOk stale sendOk resp hresp
    rw [hsent] at hresp
    split at hresp
    · obtain rfl := Option.some.inj hresp
      rw [dispatch_requestId]
      split
      · rfl
      · rename_i hneg
        exact (hcond.resolve_right hneg).symm
    · simp at hresp

/-- The registry of a running Router. -/
def routerRegistry : EventHandlerRegistry Handler Pointer :=
  (routerMgmtRegister (handlerRegistryInit true .static).2 ⟨1⟩).2

/-- A ping with id 7 for a module that nobody has registered. -/
def pingNobody : Vector UInt8 mgmtRequestSize :=
  Vector.ofFn fun i =>
    if i.val = 0 then 7 else if i.val < 24 then 0 else (CStr.lit "nobody").bytes.getD (i.val - 24) 0

theorem unanswered_ping_loses_id :
    let o := mgmtSocketProcessOne (programHandlers fun _ => 0).run ⟨⟨5, 0⟩, 5⟩ ⟨3, 0, 0, 0⟩ 1000
      ⟨true, some pingNobody.toList, .replicate _ 0, true⟩ routerRegistry
    (requestOfBytes pingNobody).requestId = 7 ∧ o.ret = 0 ∧ o.sent.map (·.requestId) = some 0 := by
  refine ⟨by decide +kernel, rfl, ?_⟩
  have hnobody : routerRegistry.place (requestOfBytes pingNobody).key = none := by
    decide +kernel
  rw [(process_answer ..).2, memcpy_vector, if_pos (by decide), Option.map_some, dispatch_requestId,
    if_neg (by simp [hnobody])]
  rfl

end StudyC.Mgmt
