import StudyC.Lib.CString

/-!
# The management protocol

The request and response structures of `mgmt_protocol.h` and the functions of `mgmt_protocol.c`
that requests and their dispatch go through.
-/

open CString

namespace StudyC.Mgmt

def mgmtCmdMax : Nat := 16
def mgmtPayloadRequestSize : Nat := 512
def mgmtPayloadResponseSize : Nat := 2048
def mgmtModuleNameSize : Nat := 64

inductive MgmtCommandType where
  | ping
  | setLogLevel
  | getStatus
  | getMetrics
  | setBufferSize
  | enableProfiling
  | resetMetrics
  | shutdown
  | getConfig
  | enableTracing
  deriving DecidableEq

def MgmtCommandType.code : MgmtCommandType → UInt8
  | .ping => 0
  | .setLogLevel => 1
  | .getStatus => 2
  | .getMetrics => 3
  | .setBufferSize => 4
  | .enableProfiling => 5
  | .resetMetrics => 6
  | .shutdown => 7
  | .getConfig => 8
  | .enableTracing => 9

inductive LogLevel where
  | trace
  | debug
  | info
  | warn
  | error
  | fatal
  deriving DecidableEq

def LogLevel.code : LogLevel → UInt8
  | .trace => 0
  | .debug => 1
  | .info => 2
  | .warn => 3
  | .error => 4
  | .fatal => 5

inductive MgmtResultCode where
  | ok
  | invalidCmd
  | moduleNotFound
  | handlerFailed
  | timeout
  | bufferOverflow
  | unauthorized
  | internalError
  deriving DecidableEq

def MgmtResultCode.code : MgmtResultCode → UInt8
  | .ok => 0
  | .invalidCmd => 1
  | .moduleNotFound => 2
  | .handlerFailed => 3
  | .timeout => 4
  | .bufferOverflow => 5
  | .unauthorized => 6
  | .internalError => 7

/-- `struct timespec` with 64-bit `time_t` and `long`. -/
structure Timespec where
  tvSec : Int64
  tvNsec : Int64
  deriving DecidableEq

structure MgmtCommandRequest where
  requestId : UInt32
  cmdType : UInt8
  flags : UInt8
  payloadLen : UInt16
  timestamp : Timespec
  targetModule : Vector UInt8 mgmtModuleNameSize
  payload : Vector UInt8 mgmtPayloadRequestSize
  deriving DecidableEq

structure MgmtCommandResponse where
  requestId : UInt32
  resultCode : UInt8
  reserved : Vector UInt8 3
  requestTimestamp : Timespec
  responseTimestamp : Timespec
  sourceModule : Vector UInt8 mgmtModuleNameSize
  payload : Vector UInt8 mgmtPayloadResponseSize
  deriving DecidableEq

def MgmtCommandResponse.zero : MgmtCommandResponse where
  requestId := 0
  resultCode := 0
  reserved := .replicate _ 0
  requestTimestamp := ⟨0, 0⟩
  responseTimestamp := ⟨0, 0⟩
  sourceModule := .replicate _ 0
  payload := .replicate _ 0

/-- What `clock_gettime(CLOCK_REALTIME)` and `time(NULL)` return during one call. -/
structure Clock where
  realtime : Timespec
  time : Int64

/-- `payload` is the bytes that `payload` and `len` describe, none for a null pointer. -/
def mgmtRequestInit (clock : Clock) (cmdType : UInt8) (module : Option CStr)
    (payload : List UInt8) : MgmtCommandRequest where
  requestId := 0
  cmdType := cmdType
  flags := 0
  payloadLen := .ofNat (payload.take mgmtPayloadRequestSize).length
  timestamp := clock.realtime
  targetModule := match module with
    | some m => strncpy (.replicate _ 0) m.bytes (mgmtModuleNameSize - 1)
    | none => .replicate _ 0
  payload := memcpy (.replicate _ 0) (payload.take mgmtPayloadRequestSize)

/-- A payload longer than the field is cut, and the rest of the field stays zero. -/
def mgmtResponseInit (clock : Clock) (reqId : UInt32) (result : UInt8) (module : Option CStr)
    (payload : List UInt8) : MgmtCommandResponse :=
  let resp := { MgmtCommandResponse.zero with
    requestId := reqId, resultCode := result, responseTimestamp := clock.realtime }
  let resp := match module with
    | some m =>
      { resp with sourceModule := strncpy resp.sourceModule m.bytes (mgmtModuleNameSize - 1) }
    | none => resp
  { resp with payload := memcpy resp.payload (payload.take mgmtPayloadResponseSize) }

/-- `(uint64_t)tv_sec * USEC_PER_SEC + tv_nsec / 1000`, in unsigned 64-bit arithmetic. -/
def Timespec.toUs (t : Timespec) : UInt64 := t.tvSec.toUInt64 * 1000000 + (t.tvNsec / 1000).toUInt64

def mgmtResponseLatencyUs (resp : MgmtCommandResponse) : UInt64 :=
  let reqUs := resp.requestTimestamp.toUs
  let respUs := resp.responseTimestamp.toUs
  if respUs > reqUs then respUs - reqUs else 0

/-- The field is not checked to end in a NUL. -/
def mgmtRequestValidate (req : MgmtCommandRequest) : Bool :=
  if req.cmdType.toNat ≥ mgmtCmdMax then false
  else if req.targetModule[0] = 0 then false
  else if req.payloadLen.toNat > mgmtPayloadRequestSize then false
  else true

theorem validate_iff (req : MgmtCommandRequest) :
    mgmtRequestValidate req = true ↔ req.cmdType.toNat < mgmtCmdMax ∧ req.targetModule[0] ≠ 0 ∧
      req.payloadLen.toNat ≤ mgmtPayloadRequestSize := by
  unfold mgmtRequestValidate
  constructor
  · intro h
    split at h
    · simp at h
    · split at h
      · simp at h
      · split at h
        · simp at h
        · exact ⟨by omega, by assumption, by omega⟩
  · rintro ⟨hcmd, htarget, hlen⟩
    rw [if_neg (by omega), if_neg htarget, if_neg (by omega)]

def mgmtResultStr : UInt8 → List UInt8
  | 0 => ascii "OK"
  | 1 => ascii "INVALID_CMD"
  | 2 => ascii "MODULE_NOT_FOUND"
  | 3 => ascii "HANDLER_FAILED"
  | 4 => ascii "TIMEOUT"
  | 5 => ascii "BUFFER_OVERFLOW"
  | 6 => ascii "UNAUTHORIZED"
  | 7 => ascii "INTERNAL_ERROR"
  | _ => ascii "UNKNOWN"

def mgmtCommandStr : UInt8 → List UInt8
  | 0 => ascii "PING"
  | 1 => ascii "SET_LOG_LEVEL"
  | 2 => ascii "GET_STATUS"
  | 3 => ascii "GET_METRICS"
  | 4 => ascii "SET_BUFFER_SIZE"
  | 5 => ascii "ENABLE_PROFILING"
  | 6 => ascii "RESET_METRICS"
  | 7 => ascii "SHUTDOWN"
  | 8 => ascii "GET_CONFIG"
  | 9 => ascii "ENABLE_TRACING"
  | _ => ascii "UNKNOWN"

end StudyC.Mgmt
