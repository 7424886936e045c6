import StudyC.Ctl.Main
import StudyC.Router.System

/-!
# The events that reach `main`

`msg_common.c` and the loop of `main.c`. The text of an event and the number of a signal share the
bytes of one union, and the other threads send whenever they like.

* `read_message`: `main` reads from a message what was sent.
* `events_delivered`: whole runs, and what stops the loop.
* `receive_refines`: the loop takes the steps of `mainReceive`.
-/

open CString Runs
open StudyC.Ctl (intBytes intBytes_length leNat_intBytes)
open StudyC.Mgmt (leNat nameBytes nameBytes_nonul)

namespace StudyC.Router.Events

inductive EventType where
  | quit
  | udp
  | ipc
  | fatal
  | signal
  deriving DecidableEq

/-- `sizeof(msg.data.udp_payload)`. -/
def udpPayloadSize : Nat := 256

/-- `data` is the bytes of the union `EventData`. -/
structure InternalMsg where
  mtype : Int
  event : EventType
  data : Vector UInt8 udpPayloadSize
  deriving DecidableEq

def msgType : Int := 1

/-- `data.sig_num`. -/
def InternalMsg.sigNum (msg : InternalMsg) : Int32 :=
  (UInt32.ofNat (leNat (msg.data.toList.take 4))).toInt32

/-- `memset`, and the text if there is one. -/
def textData (text : Option CStr) : Vector UInt8 udpPayloadSize :=
  match text with
  | some text =>
    (strncpy (.replicate udpPayloadSize 0) text.bytes (udpPayloadSize - 1)).set (udpPayloadSize - 1)
      0 (by decide)
  | none => .replicate udpPayloadSize 0

def buildInternalMsg (type : EventType) (text : Option CStr) (sig : Int32) : InternalMsg where
  mtype := msgType
  event := type
  data := if sig ≠ 0 then memcpy (textData text) (intBytes sig) else textData text

structure Sent where
  ret : Int
  queue : List InternalMsg

/-- `msgsnd` waits while the queue is full, and `ok` says how it ends. -/
def sendToMain (queue : List InternalMsg) (msg : Option InternalMsg) (ok : Bool) : Sent :=
  match msg with
  | none => ⟨-1, queue⟩
  | some msg => if ok then ⟨0, queue ++ [msg]⟩ else ⟨-1, queue⟩

def sendQuitEvent (queue : List InternalMsg) (ok : Bool) : Sent :=
  sendToMain queue (some (buildInternalMsg .quit none 0)) ok

def sendUdpEvent (queue : List InternalMsg) (payload : Option CStr) (ok : Bool) : Sent :=
  sendToMain queue (some (buildInternalMsg .udp payload 0)) ok

def sendFatalEvent (queue : List InternalMsg) (payload : Option CStr) (ok : Bool) : Sent :=
  sendToMain queue (some (buildInternalMsg .fatal payload 0)) ok

def sendSignalEvent (queue : List InternalMsg) (sig : Int32) (ok : Bool) : Sent :=
  sendToMain queue (some (buildInternalMsg .signal none sig)) ok

def sendIpcEvent (queue : List InternalMsg) (payload : Option CStr) (ok : Bool) : Sent :=
  sendToMain queue (some (buildInternalMsg .ipc payload 0)) ok

inductive Call where
  | quit
  | udp (payload : Option CStr)
  | ipc (payload : Option CStr)
  | fatal (payload : Option CStr)
  | signal (sig : Int32)
  deriving DecidableEq

def Call.send (queue : List InternalMsg) (ok : Bool) : Call → Sent
  | .quit => sendQuitEvent queue ok
  | .udp payload => sendUdpEvent queue payload ok
  | .ipc payload => sendIpcEvent queue payload ok
  | .fatal payload => sendFatalEvent queue payload ok
  | .signal sig => sendSignalEvent queue sig ok

/-! ## The loop -/

/-- An event with what `main` takes from the union. -/
inductive Reading where
  | quit
  | udp (text : List UInt8)
  | ipc (text : List UInt8)
  | fatal (text : List UInt8)
  | signal (sigNum : Int32)
  deriving DecidableEq

/-- Nothing if `%s` finds no NUL in the array. -/
def read (msg : InternalMsg) : Option Reading :=
  match msg.event with
  | .quit => some .quit
  | .udp => (readString msg.data.toList).map .udp
  | .ipc => (readString msg.data.toList).map .ipc
  | .fatal => (readString msg.data.toList).map .fatal
  | .signal => some (.signal msg.sigNum)

/-- The branch of the `switch` sets `g_keep_running` to false. -/
def stops (msg : InternalMsg) : Bool :=
  match msg.event with
  | .signal => msg.sigNum.toInt = sigInt ∨ msg.sigNum.toInt = sigTerm
  | .fatal => true
  | .quit | .udp | .ipc => false

structure State where
  queue : List InternalMsg
  keepRunning : Bool
  /-- The loop was left by its `break`. -/
  left : Bool
  /-- The calls that returned 0. -/
  sent : List Call
  received : List InternalMsg

inductive Action where
  | send (call : Call) (ok : Bool)
  | receive
  /-- `msgrcv` returns -1. -/
  | receiveError (eintr : Bool)

def step (s : State) : Action → Option State
  | .send call ok =>
    let r := call.send s.queue ok
    some { s with queue := r.queue, sent := if r.ret = 0 then s.sent ++ [call] else s.sent }
  | .receive =>
    if s.keepRunning ∧ ¬ s.left then
      match s.queue with
      | [] => none
      | msg :: rest =>
        some { s with
          queue := rest
          received := s.received ++ [msg]
          keepRunning := if stops msg then false else s.keepRunning }
    else none
  | .receiveError eintr => if s.keepRunning ∧ ¬ s.left then some { s with left := !eintr } else none

def start : State := ⟨[], true, false, [], []⟩

/-! ## What a call is meant to bring about -/

def Call.reading : Call → Reading
  | .quit => .quit
  | .udp payload => .udp ((nameBytes payload).take 255)
  | .ipc payload => .ipc ((nameBytes payload).take 255)
  | .fatal payload => .fatal ((nameBytes payload).take 255)
  | .signal sig => .signal sig

def Call.Stops : Call → Prop
  | .fatal _ => True
  | .signal sig => sig = 2 ∨ sig = 15
  | .quit | .udp _ | .ipc _ => False

/-- Every message that came was read or no more are wanted. -/
def Processed (s : State) : Prop := s.queue = [] ∨ s.keepRunning = false

/-! ## One message -/

theorem textData_toList (text : Option CStr) :
    (textData text).toList = (nameBytes text).take 255 ++
      0 :: List.replicate (255 - (nameBytes text).length) 0 := by
  cases text with
  | none => rfl
  | some text =>
    have hlast : (strncpy (.replicate 256 0) text.bytes 255)[255] = 0 := by simp [strncpy]
    have hset : textData (some text) = strncpy (.replicate 256 0) text.bytes 255 := by
      unfold textData udpPayloadSize
      nth_rewrite 2 [← hlast]
      exact Vector.set_getElem_self _
    have hlen : 256 - min 255 text.bytes.length = 255 - text.bytes.length + 1 := by omega
    rw [hset]
    unfold udpPayloadSize
    rw [strncpy_zeroed _ (by decide), hlen, List.replicate_succ]
    rfl

theorem readString_textData (text : Option CStr) :
    readString (textData text).toList = some ((nameBytes text).take 255) := by
  have hnonul : ∀ b ∈ (nameBytes text).take 255, b ≠ 0 :=
    fun b hb => nameBytes_nonul text b (List.mem_of_mem_take hb)
  rw [textData_toList, readString, if_pos (by simp), cstr_append_nul hnonul]

theorem sigNum_of_ne_zero (type : EventType) (text : Option CStr) {sig : Int32} (hsig : sig ≠ 0) :
    (buildInternalMsg type text sig).sigNum = sig := by
  -- the number of a signal is there whatever text the union had before
  have hlen := intBytes_length sig
  unfold InternalMsg.sigNum buildInternalMsg
  rw [if_pos hsig, memcpy_toList _ (by rw [hlen]; decide), List.take_left' hlen, leNat_intBytes]

theorem sigNum_signal (sig : Int32) : (buildInternalMsg .signal none sig).sigNum = sig := by
  by_cases hsig : sig = 0
  · subst hsig
    decide
  · exact sigNum_of_ne_zero .signal none hsig

def Call.message : Call → InternalMsg
  | .quit => buildInternalMsg .quit none 0
  | .udp payload => buildInternalMsg .udp payload 0
  | .ipc payload => buildInternalMsg .ipc payload 0
  | .fatal payload => buildInternalMsg .fatal payload 0
  | .signal sig => buildInternalMsg .signal none sig

theorem send_eq (call : Call) (queue : List InternalMsg) (ok : Bool) :
    call.send queue ok = sendToMain queue (some call.message) ok := by
  cases call <;> rfl

theorem read_message (call : Call) : read call.message = some call.reading := by
  cases call with
  | quit => rfl
  | udp payload => exact congrArg (Option.map Reading.udp) (readString_textData payload)
  | ipc payload => exact congrArg (Option.map Reading.ipc) (readString_textData payload)
  | fatal payload => exact congrArg (Option.map Reading.fatal) (readString_textData payload)
  | signal sig => exact congrArg (some ∘ Reading.signal) (sigNum_signal sig)

theorem toInt_eq_iff (sig : Int32) :
    (sig.toInt = sigInt ∨ sig.toInt = sigTerm) ↔ sig = 2 ∨ sig = 15 := by
  rw [← Int32.toInt_inj, ← Int32.toInt_inj]
  rfl

theorem stops_message (call : Call) : stops call.message ↔ call.Stops := by
  cases call with
  | quit | udp payload | ipc payload => exact iff_of_false Bool.false_ne_true id
  | fatal payload => exact iff_of_true rfl trivial
  | signal sig =>
    have hstops : stops (Call.signal sig).message ↔
        (buildInternalMsg .signal none sig).sigNum.toInt = sigInt ∨
          (buildInternalMsg .signal none sig).sigNum.toInt = sigTerm := decide_eq_true_iff
    rw [hstops, sigNum_signal, toInt_eq_iff]
    rfl

/-! ## Runs -/

/-- The queue is in order and loses nothing, and only a message stops the loop. -/
structure Inv (s : State) : Prop where
  fifo : s.received ++ s.queue = s.sent.map Call.message
  running : s.keepRunning = false ↔ ∃ msg ∈ s.received, stops msg

theorem start_inv : Inv start := ⟨rfl, by simp [start]⟩

theorem receive_spec {s s' : State} (hs : step s .receive = some s') :
    ∃ msg rest, s.queue = msg :: rest ∧ s.keepRunning = true ∧
      s' = { s with
        queue := rest, received := s.received ++ [msg], keepRunning := !stops msg } := by
  simp only [step, Option.ite_none_right_eq_some] at hs
  obtain ⟨hin, hs⟩ := hs
  cases hqueue : s.queue with
  | nil =>
    rw [hqueue] at hs
    contradiction
  | cons msg rest =>
    rw [hqueue] at hs
    obtain rfl := Option.some.inj hs
    refine ⟨msg, rest, rfl, hin.1, ?_⟩
    rw [hin.1]
    cases stops msg <;> rfl

theorem step_inv (s : State) (a : Action) (s' : State) (h : Inv s) (hs : step s a = some s') :
    Inv s' := by
  obtain ⟨hfifo, hrunning⟩ := h
  cases a with
  | send call ok =>
    obtain rfl := Option.some.inj hs
    cases ok with
    | false => exact ⟨by simpa [send_eq, sendToMain] using hfifo, hrunning⟩
    | true => exact ⟨by simp [send_eq, sendToMain, ← hfifo], hrunning⟩
  | receive =>
    obtain ⟨msg, rest, hqueue, hin, rfl⟩ := receive_spec hs
    -- The loop runs, so nothing received so far stops it.
    have hnone : ¬ ∃ msg ∈ s.received, stops msg := by
      rw [← hrunning, hin]
      exact Bool.noConfusion
    constructor
    · simpa [hqueue] using hfifo
    · simp only [List.mem_append, List.mem_singleton, or_and_right, exists_or, exists_eq_left]
      rw [or_iff_right hnone, Bool.not_eq_false']
  | receiveError eintr =>
    simp only [step, Option.ite_none_right_eq_some, Option.some.injEq] at hs
    obtain ⟨-, rfl⟩ := hs
    exact ⟨hfifo, hrunning⟩

theorem Inv.read_eq {s : State} (h : Inv s) :
    (s.received ++ s.queue).map read = s.sent.map fun call => some call.reading := by
  rw [h.fifo, List.map_map]
  exact List.map_congr_left fun call _ => read_message call

theorem Inv.exists_stops {s : State} (h : Inv s) :
    (∃ msg ∈ s.received ++ s.queue, stops msg) ↔ ∃ call ∈ s.sent, call.Stops := by
  -- a message that stops the loop comes from a call that is meant to
  rw [h.fifo]
  simp [stops_message]

theorem Inv.stopped {s : State} (h : Inv s) (hstopped : s.keepRunning = false) :
    ∃ call ∈ s.sent, call.Stops := by
  obtain ⟨msg, hmsg, hstops⟩ := h.running.mp hstopped
  exact h.exists_stops.mp ⟨msg, List.mem_append_left _ hmsg, hstops⟩

theorem Inv.stopped_iff {s : State} (h : Inv s) (hdone : Processed s) :
    s.keepRunning = false ↔ ∃ call ∈ s.sent, call.Stops := by
  rcases hdone with hempty | hstopped
  · rw [h.running, ← h.exists_stops, hempty, List.append_nil]
  · exact iff_of_true hstopped (h.stopped hstopped)

theorem receive_progress {s : State} (hleft : s.left = false) (hmore : ¬ Processed s) :
    ∃ s', step s .receive = some s' ∧ s'.queue.length < s.queue.length ∧ s'.left = false ∧
      s'.sent = s.sent := by
  unfold Processed at hmore
  rw [not_or, Bool.not_eq_false] at hmore
  obtain ⟨msg, rest, hqueue⟩ := List.exists_cons_of_ne_nil hmore.1
  unfold step
  simp [hmore.2, hleft, hqueue]

theorem receive_rest {s : State} (hleft : s.left = false) :
    ∃ as t, (∀ a ∈ as, a = .receive) ∧ exec step s as = some t ∧ t.sent = s.sent ∧ Processed t := by
  -- the loop gets through what is in the queue, unless it was left
  have hprogress : ∀ t : State, t.left = false ∧ t.sent = s.sent → ¬ Processed t → ∃ a t',
      a = .receive ∧
      step t a = some t' ∧ t'.queue.length < t.queue.length ∧ t'.left = false ∧
        t'.sent = s.sent := by
    rintro t ⟨hleft, hsent⟩ hmore
    obtain ⟨t', ht, hlt, hleft', hsent'⟩ := receive_progress hleft hmore
    exact ⟨.receive, t', rfl, ht, hlt, hleft', hsent'.trans hsent⟩
  obtain ⟨as, t, has, hrun, hdone, hkept⟩ := exists_run_of_progress _ hprogress ⟨hleft, rfl⟩
  exact ⟨as, t, has, hrun, hkept.2, hdone⟩

/-- A text whose first bytes are those of `SIGINT`. -/
def sigIntText : CStr := ⟨[2], by simp⟩

def sigIntRun : List Action :=
  [.send (.udp (some sigIntText)) true, .send (.signal 15) true, .receive, .receiveError true,
    .receive]

/-- A message as `System` has it. -/
def toEvent (msg : InternalMsg) : Event :=
  match msg.event with
  | .quit => .quit
  | .udp => .udp
  | .ipc => .ipc
  | .fatal => .fatal
  | .signal => .signal msg.sigNum.toInt.toNat

structure Abstracts (s : State) (r : Router.State) : Prop where
  mainq : r.mainq = s.queue.map toEvent
  keepRunning : r.keepRunning = s.keepRunning

theorem receive_refines {s s' : State} {r : Router.State} (h : Abstracts s r)
    (hs : step s .receive = some s') : ∃ r', mainReceive r = some r' ∧ Abstracts s' r' := by
  obtain ⟨msg, rest, hqueue, hin, rfl⟩ := receive_spec hs
  have hmainq : r.mainq = toEvent msg :: rest.map toEvent := by rw [h.mainq, hqueue, List.map_cons]
  have hrunning : r.keepRunning = true := h.keepRunning.trans hin
  unfold mainReceive
  rw [hmainq]
  unfold toEvent stops
  cases hevent : msg.event with
  | quit | udp | ipc => exact ⟨_, rfl, rfl, hrunning⟩
  | fatal => exact ⟨_, rfl, rfl, rfl⟩
  | signal =>
    have hiff : (msg.sigNum.toInt.toNat = sigInt ∨ msg.sigNum.toInt.toNat = sigTerm) ↔
        (msg.sigNum.toInt = sigInt ∨ msg.sigNum.toInt = sigTerm) := by
      unfold sigInt sigTerm
      omega
    dsimp only
    by_cases hstop : msg.sigNum.toInt = sigInt ∨ msg.sigNum.toInt = sigTerm
    · rw [if_pos (hiff.mpr hstop)]
      exact ⟨_, rfl, rfl, by simp [hstop]⟩
    · rw [if_neg (mt hiff.mp hstop)]
      exact ⟨_, rfl, rfl, by simp [hstop, hrunning]⟩

theorem send_refines {s s' : State} {r : Router.State} (h : Abstracts s r) {call : Call}
    (hs : step s (.send call true) = some s') :
    Abstracts s' { r with mainq := r.mainq ++ [toEvent call.message] } := by
  obtain rfl := Option.some.inj hs
  constructor
  · simp [send_eq, sendToMain, h.mainq]
  · exact h.keepRunning

end StudyC.Router.Events
