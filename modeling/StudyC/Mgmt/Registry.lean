import StudyC.Lib.KeyedList
import StudyC.Lib.SlotTable
import StudyC.Mgmt.Protocol

/-!
# The event handler registry

`g_registry` of `event_handler.c` and the functions on it. Function pointers are values of `H` and
contexts values of `X`, with NULL as `0`. `handler_dispatch` is cut at the points where it takes
and releases the registry lock: lookup, invocation, accounting.
-/

open CString KeyedList

namespace StudyC.Mgmt

def maxEventHandlers : Nat := 64

structure EventHandlerEntry (H X : Type) where
  cmdType : UInt8
  moduleName : Vector UInt8 mgmtModuleNameSize
  handler : H
  context : X
  invocationCount : UInt32
  totalLatencyUs : UInt64
  deriving DecidableEq

structure EventHandlerRegistry (H X : Type) where
  /-- `entries` with its `entry_count`. -/
  entries : SlotTable (EventHandlerEntry H X) maxEventHandlers
  totalDispatches : UInt32
  totalFailures : UInt32
  initialized : Bool

abbrev Key := UInt8 × List UInt8

def EventHandlerEntry.key {H X : Type} (e : EventHandlerEntry H X) : Key :=
  (e.cmdType, cstr e.moduleName.toList)

def EventHandlerEntry.target {H X : Type} (e : EventHandlerEntry H X) : H × X :=
  (e.handler, e.context)

/-- `avg_latency` of `handler_list`. -/
def EventHandlerEntry.avgLatency {H X : Type} (e : EventHandlerEntry H X) : UInt64 :=
  if e.invocationCount > 0 then e.totalLatencyUs / e.invocationCount.toUInt64 else 0

/-- An index into `entries`, as the pointer `matching_entry` is one. -/
abbrev Slot := Fin maxEventHandlers

variable {H X : Type}

/-- The lookup loop: the first live entry with the command type and, by `strcmp`, the name. -/
def EventHandlerRegistry.findEntry (r : EventHandlerRegistry H X) (cmdType : UInt8)
    (name : List UInt8) : Option Slot :=
  (r.entries.live.findIdx? fun e => e.cmdType = cmdType ∧ cstr e.moduleName.toList = cstr name).bind
    fun i => if h : i < maxEventHandlers then some ⟨i, h⟩ else none

/-- `strncpy` of at most 63 bytes over the old name, then a NUL in the last byte. -/
def copyName (old : Vector UInt8 mgmtModuleNameSize) (m : CStr) : Vector UInt8 mgmtModuleNameSize :=
  (strncpy old m.bytes (mgmtModuleNameSize - 1)).set (mgmtModuleNameSize - 1) 0 (by decide)

section
variable [Zero H] [Zero X]

/-- The static initial value, zero in every field. -/
def EventHandlerRegistry.static : EventHandlerRegistry H X where
  entries := ⟨.replicate _ ⟨0, .replicate _ 0, 0, 0, 0, 0⟩, 0, Nat.zero_le _⟩
  totalDispatches := 0
  totalFailures := 0
  initialized := false

end

/-- `mutexOk` is whether `pthread_mutex_init` succeeds. -/
def handlerRegistryInit (mutexOk : Bool) (r : EventHandlerRegistry H X) :
    Int × EventHandlerRegistry H X :=
  if r.initialized then (0, r)
  else if !mutexOk then (-1, r)
  else (0, ⟨r.entries.clear, 0, 0, true⟩)

def handlerRegistryDestroy (r : EventHandlerRegistry H X) : EventHandlerRegistry H X :=
  if !r.initialized then r else ⟨r.entries.clear, 0, 0, false⟩

/-- Re-registration keeps the key and resets the statistics. -/
def EventHandlerEntry.rebind (handler : H) (context : X) (e : EventHandlerEntry H X) :
    EventHandlerEntry H X :=
  { e with handler, context, invocationCount := 0, totalLatencyUs := 0 }

def EventHandlerEntry.fill (old : EventHandlerEntry H X) (m : CStr) (cmdType : UInt8) (handler : H)
    (context : X) : EventHandlerEntry H X :=
  { cmdType, handler, context, moduleName := copyName old.moduleName m, invocationCount := 0,
    totalLatencyUs := 0 }

def handlerRegister [Zero H] [DecidableEq H] (r : EventHandlerRegistry H X)
    (moduleName : Option CStr) (cmdType : UInt8) (handler : H) (context : X) :
    Int × EventHandlerRegistry H X :=
  match moduleName with
  | none => (-1, r)
  | some m =>
    if handler = 0 ∨ cmdType.toNat ≥ mgmtCmdMax then (-1, r)
    else match r.findEntry cmdType m.bytes with
      | some i => (0, { r with entries := r.entries.modify i (.rebind handler context) })
      | none =>
        if h : r.entries.count < maxEventHandlers then
          let e := r.entries.slots[r.entries.count].fill m cmdType handler context
          (0, { r with entries := r.entries.push e })
        else (-1, r)

def handlerUnregister (r : EventHandlerRegistry H X) (moduleName : Option CStr) (cmdType : UInt8) :
    Int × EventHandlerRegistry H X :=
  match moduleName with
  | none => (-1, r)
  | some m => match r.findEntry cmdType m.bytes with
    | some i => (0, { r with entries := r.entries.remove i })
    | none => (-1, r)

def handlerStatsReset (r : EventHandlerRegistry H X) : Int × EventHandlerRegistry H X :=
  (0, { r with
    totalDispatches := 0, totalFailures := 0,
    entries := r.entries.mapLive fun e => { e with invocationCount := 0, totalLatencyUs := 0 } })

/-! ## Dispatch, in its three atomic steps -/

/-- What the first critical section leaves behind: a return, or the pointer it matched. -/
inductive LookupResult where
  | rejected (ret : Int) (resp : MgmtCommandResponse)
  | matched (slot : Slot) (resp : MgmtCommandResponse)

def prepareResponse (req : MgmtCommandRequest) (resp : MgmtCommandResponse) : MgmtCommandResponse :=
  { resp with
    requestId := req.requestId
    requestTimestamp := req.timestamp
    sourceModule :=
      strncpy resp.sourceModule (cstr req.targetModule.toList) (mgmtModuleNameSize - 1) }

def dispatchLookup (r : EventHandlerRegistry H X) (req : MgmtCommandRequest)
    (resp : MgmtCommandResponse) : LookupResult :=
  if !mgmtRequestValidate req then
    .rejected (-3) { resp with resultCode := MgmtResultCode.invalidCmd.code }
  else match r.findEntry req.cmdType req.targetModule.toList with
    | none => .rejected (-1) { resp with resultCode := MgmtResultCode.moduleNotFound.code }
    | some i => .matched i (prepareResponse req resp)

/-- Reads handler and context through the pointer, with the lock released. -/
def dispatchInvoke (r : EventHandlerRegistry H X) (slot : Slot) : H × X :=
  r.entries.slots[slot].target

/-- The second critical section, on whatever the slot then holds. -/
def dispatchAccount (r : EventHandlerRegistry H X) (slot : Slot) (result : Int)
    (resp : MgmtCommandResponse) : EventHandlerRegistry H X × MgmtCommandResponse :=
  let resp :=
    if result ≠ 0 then { resp with resultCode := MgmtResultCode.handlerFailed.code }
    else if resp.resultCode = 0 then { resp with resultCode := MgmtResultCode.ok.code }
    else resp
  let latency := mgmtResponseLatencyUs resp
  ({ r with
      totalDispatches := r.totalDispatches + 1
      totalFailures := if result ≠ 0 then r.totalFailures + 1 else r.totalFailures
      entries := r.entries.modify slot fun e => { e with
        invocationCount := e.invocationCount + 1, totalLatencyUs := e.totalLatencyUs + latency } },
    resp)

/-- What the function pointers point to. A handler may read the clock. -/
abbrev HandlerCode (H X : Type) :=
  H → Clock → MgmtCommandRequest → MgmtCommandResponse → X → Int × MgmtCommandResponse

structure DispatchOutcome (H X : Type) where
  ret : Int
  registry : EventHandlerRegistry H X
  resp : MgmtCommandResponse
  invoked : Option (H × X)

/-- The three steps in a row: no other thread comes between, and handlers leave the registry alone.
-/
def handlerDispatch (code : HandlerCode H X) (clock : Clock) (r : EventHandlerRegistry H X)
    (req : MgmtCommandRequest) (resp : MgmtCommandResponse) : DispatchOutcome H X :=
  match dispatchLookup r req resp with
  | .rejected ret resp => ⟨ret, r, resp, none⟩
  | .matched slot resp =>
    let target := dispatchInvoke r slot
    let (result, resp) := code target.1 clock req resp target.2
    let (r', resp) := dispatchAccount r slot result resp
    ⟨result, r', resp, some target⟩

end StudyC.Mgmt
