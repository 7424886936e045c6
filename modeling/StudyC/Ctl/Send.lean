import Mathlib.Logic.Function.Basic
import StudyC.Lib.Runs
import StudyC.Mgmt.Handlers

/-!
# Requests and their replies

`mgmt_send_command` and the server it talks to. A call binds a socket to a name made from the
process id, sends the request, and takes the first datagram that arrives. Everything on the machine
can send to that name: the server with a reply to this or to another request, and any other process.

* `answers_of_undisturbed`: when the response of a call is the server's answer to its request.
* `distinct_iff_first`: the ids of requests are never distinct.
-/

open CString Runs

namespace StudyC.Ctl

open Mgmt

/-- `sizeof(MgmtCommandResponse)`. -/
def mgmtResponseSize : Nat := 2152

structure Datagram where
  size : Nat
  /-- Its first bytes, read as the structure. -/
  content : MgmtCommandResponse

/-- Where a call stands. The result is `*resp` if the call returns 0. -/
inductive Phase where
  | socket
  | unlink
  | bind
  | sendto
  | poll
  | recv
  | cleanup (result : Option MgmtCommandResponse)
  | done (result : Option MgmtCommandResponse)

structure Call where
  pid : Nat
  req : MgmtCommandRequest
  phase : Phase
  /-- What has arrived at its socket. -/
  queue : List Datagram

/-- A request at the server, with the process whose name the sender's socket has, and the call that
sent it if it was one of `mgmt_send_command`. -/
structure Pending where
  req : MgmtCommandRequest
  replyTo : Nat
  call : Option Nat

structure State (H X : Type) where
  calls : Nat → Option Call
  /-- The call whose socket the name of a process leads to. -/
  name : Nat → Option Nat
  inbox : List Pending
  registry : EventHandlerRegistry H X
  /-- What `mgmt_request_init` has built so far. -/
  built : List MgmtCommandRequest
  /-- The responses that the server has generated, with the call whose request each one is for. -/
  served : List (Nat × MgmtCommandResponse)

inductive Action where
  /-- `mgmt_request_init`, and `mgmt_send_command` is entered with the request. -/
  | call (pid : Nat) (clock : Clock) (cmdType : UInt8) (module : Option CStr) (payload : List UInt8)
  /-- The next system call of a call, and whether it succeeds. -/
  | run (c : Nat) (ok : Bool)
  /-- `mgmt_socket_process_one` of the server, and whether its `sendto` succeeds. -/
  | serve (clock : Clock) (sendOk : Bool)
  /-- Another process sends a request, from a socket bound to the name of `pid`. -/
  | foreignRequest (pid : Nat) (req : MgmtCommandRequest)
  /-- Another process sends a datagram to the name of `pid`. -/
  | foreignSend (pid : Nat) (d : Datagram)

variable {H X : Type}

def State.setCall (s : State H X) (c : Nat) (call : Call) : State H X :=
  { s with calls := Function.update s.calls c (some call) }

def State.setName (s : State H X) (pid : Nat) (c : Option Nat) : State H X :=
  { s with name := Function.update s.name pid c }

/-- A datagram sent to a name arrives at the socket the name leads to, if there is one. -/
def State.deliver (s : State H X) (pid : Nat) (d : Datagram) : State H X :=
  match s.name pid with
  | none => s
  | some c =>
    let call := (s.calls c).map fun call => { call with queue := call.queue ++ [d] }
    { s with calls := Function.update s.calls c call }

/-- One system call of `mgmt_send_command`. -/
def mgmtSendCommand (s : State H X) (c : Nat) (call : Call) (ok : Bool) : Option (State H X) :=
  match call.phase with
  | .socket => some (s.setCall c { call with phase := if ok then .unlink else .done none })
  | .unlink => some ((s.setName call.pid none).setCall c { call with phase := .bind })
  | .bind =>
    -- the name may exist again
    if ok ∧ s.name call.pid = none then
      some ((s.setName call.pid (some c)).setCall c { call with phase := .sendto })
    else some (s.setCall c { call with phase := .cleanup none })
  | .sendto =>
    if ok then
      let pending : Pending := ⟨call.req, call.pid, some c⟩
      some ({ s with inbox := s.inbox ++ [pending] }.setCall c { call with phase := .poll })
    else some (s.setCall c { call with phase := .cleanup none })
  | .poll =>
    if !ok then some (s.setCall c { call with phase := .cleanup none })
    else if call.queue.isEmpty then none
    else some (s.setCall c { call with phase := .recv })
  | .recv => match call.queue with
    | [] => none
    | d :: queue =>
      -- a longer datagram is cut to the size of the structure
      let result := if mgmtResponseSize ≤ d.size then some d.content else none
      some (s.setCall c { call with phase := .cleanup result, queue := queue })
  | .cleanup result =>
    some ((s.setName call.pid none).setCall c { call with phase := .done result })
  | .done _ => none

def serve (code : HandlerCode H X) (s : State H X) (clock : Clock) (sendOk : Bool) :
    Option (State H X) :=
  match s.inbox with
  | [] => none
  | p :: inbox =>
    let o := handlerDispatch code clock s.registry p.req .zero
    let s := { s with
      inbox := inbox
      registry := o.registry
      served := s.served ++ p.call.toList.map fun c => (c, o.resp) }
    some (if sendOk then s.deliver p.replyTo ⟨mgmtResponseSize, o.resp⟩ else s)

def step (code : HandlerCode H X) (s : State H X) : Action → Option (State H X)
  | .call pid clock cmdType module payload =>
    let req := mgmtRequestInit clock cmdType module payload
    some ({ s with built := s.built ++ [req] }.setCall s.built.length ⟨pid, req, .socket, []⟩)
  | .run c ok => (s.calls c).bind fun call => mgmtSendCommand s c call ok
  | .serve clock sendOk => serve code s clock sendOk
  | .foreignRequest pid req => some { s with inbox := s.inbox ++ [⟨req, pid, none⟩] }
  | .foreignSend pid d => some (s.deliver pid d)

def init (r : EventHandlerRegistry H X) : State H X := ⟨fun _ => none, fun _ => none, [], r, [], []⟩

/-- A call that is about to return 0 has the server's response to its own request. -/
def Answers (s : State H X) : Action → Prop
  | .run c _ => ∀ call resp, s.calls c = some call → call.phase = .cleanup (some resp) →
    (c, resp) ∈ s.served
  | _ => True

/-- A new request has an id that no earlier request has. -/
def DistinctId (s : State H X) : Action → Prop
  | .call _ clock cmdType module payload =>
    ∀ req ∈ s.built, req.requestId ≠ (mgmtRequestInit clock cmdType module payload).requestId
  | _ => True

def FirstRequest (s : State H X) : Action → Prop
  | .call .. => s.built = []
  | _ => True

/-- No reply to another request, and no other datagram of full size, is sent to the name of a call.
-/
def Undisturbed (s : State H X) : Action → Prop
  | .serve _ _ => ∀ p ∈ s.inbox.head?, ∀ c ∈ s.name p.replyTo, p.call = some c
  | .foreignSend pid d => d.size < mgmtResponseSize ∨ s.name pid = none
  | _ => True

/-! ## What arrives at a call -/

/-- All that the call can return as a response is in the server's record for it. -/
structure Good (served : List (Nat × MgmtCommandResponse)) (c : Nat) (call : Call) : Prop where
  queue : ∀ d ∈ call.queue, mgmtResponseSize ≤ d.size → (c, d.content) ∈ served
  result : ∀ resp, call.phase = .cleanup (some resp) → (c, resp) ∈ served

def Inv (s : State H X) : Prop := ∀ c call, s.calls c = some call → Good s.served c call

theorem Inv.setCall {s : State H X} (h : Inv s) {c : Nat} {call : Call}
    (hcall : Good s.served c call) : Inv (s.setCall c call) := by
  intro c' call' hc'
  simp only [State.setCall, Function.update_apply] at hc'
  split at hc'
  · rename_i hcc
    obtain rfl := Option.some.inj hc'
    rw [hcc]
    exact hcall
  · exact h c' call' hc'

theorem Inv.setName {s : State H X} (h : Inv s) (pid : Nat) (c : Option Nat) :
    Inv (s.setName pid c) := h

theorem Inv.deliver {s : State H X} (h : Inv s) {pid : Nat} {d : Datagram}
    (hd : ∀ c ∈ s.name pid, mgmtResponseSize ≤ d.size → (c, d.content) ∈ s.served) :
    Inv (s.deliver pid d) := by
  unfold State.deliver
  split
  · exact h
  · rename_i c hname
    intro c' call' hc'
    simp only [Function.update_apply] at hc'
    split at hc'
    · rename_i hcc
      subst hcc
      obtain ⟨call, hcall, rfl⟩ := Option.map_eq_some_iff.mp hc'
      refine ⟨?_, (h c' call hcall).result⟩
      intro d' hd' hsize
      rcases List.mem_append.mp hd' with hd' | hd'
      · exact (h c' call hcall).queue d' hd' hsize
      · obtain rfl := List.mem_singleton.mp hd'
        exact hd c' hname hsize
    · exact h c' call' hc'

theorem Good.setPhase {served : List (Nat × MgmtCommandResponse)} {c : Nat} {call : Call}
    (h : Good served c call) {ph : Phase} (hph : ∀ resp, ph ≠ .cleanup (some resp)) :
    Good served c { call with phase := ph } :=
  ⟨h.queue, fun resp hresp => absurd hresp (hph resp)⟩

theorem mgmtSendCommand_inv {s s' : State H X} {c : Nat} {call : Call} {ok : Bool} (h : Inv s)
    (hcall : s.calls c = some call) (hs : mgmtSendCommand s c call ok = some s') : Inv s' := by
  have hgood := h c call hcall
  unfold mgmtSendCommand at hs
  split at hs
  · obtain rfl := Option.some.inj hs
    refine h.setCall (hgood.setPhase ?_)
    intro resp
    split <;> simp
  · obtain rfl := Option.some.inj hs
    exact (h.setName _ _).setCall (hgood.setPhase (by simp))
  · split at hs
    · obtain rfl := Option.some.inj hs
      exact (h.setName _ _).setCall (hgood.setPhase (by simp))
    · obtain rfl := Option.some.inj hs
      exact h.setCall (hgood.setPhase (by simp))
  · split at hs
    · obtain rfl := Option.some.inj hs
      have hinbox : Inv { s with inbox := s.inbox ++ [⟨call.req, call.pid, some c⟩] } := h
      exact hinbox.setCall (hgood.setPhase (by simp))
    · obtain rfl := Option.some.inj hs
      exact h.setCall (hgood.setPhase (by simp))
  · split at hs
    · obtain rfl := Option.some.inj hs
      exact h.setCall (hgood.setPhase (by simp))
    · split at hs
      · simp at hs
      · obtain rfl := Option.some.inj hs
        exact h.setCall (hgood.setPhase (by simp))
  · split at hs
    · simp at hs
    · -- the first datagram is taken, whoever sent it
      rename_i d queue hqueue
      obtain rfl := Option.some.inj hs
      refine h.setCall ⟨?_, ?_⟩
      · intro d' hd'
        exact hgood.queue d' (by rw [hqueue]; exact List.mem_cons_of_mem _ hd')
      · intro resp hresp
        simp only [Phase.cleanup.injEq] at hresp
        split at hresp
        · rename_i hsize
          obtain rfl := Option.some.inj hresp
          exact hgood.queue d (by simp [hqueue]) hsize
        · simp at hresp
  · obtain rfl := Option.some.inj hs
    exact (h.setName _ _).setCall (hgood.setPhase (by simp))
  · simp at hs

theorem serve_inv {code : HandlerCode H X} {s s' : State H X} {clock : Clock} {sendOk : Bool}
    (h : Inv s) (hcond : Undisturbed s (.serve clock sendOk))
    (hs : serve code s clock sendOk = some s') : Inv s' := by
  unfold serve at hs
  split at hs
  · simp at hs
  · rename_i p inbox hinbox
    have hreply := hcond p (by rw [hinbox]; rfl)
    have hmono : ∀ served, Inv { s with
        inbox := inbox
        registry := (handlerDispatch code clock s.registry p.req .zero).registry
        served := s.served ++ served } := by
      intro served c call hcall
      refine ⟨?_, ?_⟩
      · intro d hd hsize
        exact List.mem_append_left _ ((h c call hcall).queue d hd hsize)
      · intro resp hresp
        exact List.mem_append_left _ ((h c call hcall).result resp hresp)
    obtain rfl := Option.some.inj hs
    split
    · refine (hmono _).deliver ?_
      intro c hc _
      simp [hreply c hc]
    · exact hmono _

theorem step_inv (code : HandlerCode H X) (s : State H X) (a : Action) (s' : State H X) (h : Inv s)
    (hcond : Undisturbed s a) (hs : step code s a = some s') : Inv s' := by
  cases a with
  | call pid clock cmdType module payload =>
    obtain rfl := Option.some.inj hs
    have hbuilt :
        Inv { s with built := s.built ++ [mgmtRequestInit clock cmdType module payload] } := h
    exact hbuilt.setCall ⟨by simp, by simp⟩
  | run c ok =>
    obtain ⟨call, hcall, hs⟩ := Option.bind_eq_some_iff.mp hs
    exact mgmtSendCommand_inv h hcall hs
  | serve clock sendOk => exact serve_inv h hcond hs
  | foreignRequest pid req =>
    obtain rfl := Option.some.inj hs
    exact h
  | foreignSend pid d =>
    obtain rfl := Option.some.inj hs
    refine h.deliver ?_
    intro c hc hsize
    rcases hcond with hlt | hnone
    · omega
    · rw [hnone] at hc
      simp at hc

theorem answers_of_undisturbed (code : HandlerCode H X) (r : EventHandlerRegistry H X)
    (as : List Action) (hcond : Along (step code) Undisturbed (init r) as) :
    Along (step code) Answers (init r) as := by
  have hinit : Inv (init r) := by
    intro c call hcall
    simp [init] at hcall
  refine hcond.mono (step_inv code) ?_ hinit
  intro s a h _
  cases a with
  | run c ok => exact fun call resp hcall hphase => (h c call hcall).result resp hphase
  | _ => trivial

/-! ## Ids -/

theorem step_built {code : HandlerCode H X} {s s' : State H X} {a : Action}
    (hs : step code s a = some s') :
    s'.built = s.built ∨ ∃ clock cmdType module payload,
      s'.built = s.built ++ [mgmtRequestInit clock cmdType module payload] := by
  cases a with
  | call pid clock cmdType module payload =>
    obtain rfl := Option.some.inj hs
    exact .inr ⟨clock, cmdType, module, payload, rfl⟩
  | run c ok =>
    obtain ⟨call, -, hs⟩ := Option.bind_eq_some_iff.mp hs
    left
    unfold mgmtSendCommand at hs
    repeat' split at hs
    all_goals first
      | (obtain rfl := Option.some.inj hs; rfl)
      | simp at hs
  | serve clock sendOk =>
    left
    simp only [step, serve] at hs
    split at hs
    · simp at hs
    · obtain rfl := Option.some.inj hs
      unfold State.deliver
      repeat' split
      all_goals rfl
  | foreignRequest pid req =>
    obtain rfl := Option.some.inj hs
    exact .inl rfl
  | foreignSend pid d =>
    obtain rfl := Option.some.inj hs
    left
    unfold State.deliver
    split <;> rfl

theorem distinct_iff_first (code : HandlerCode H X) (r : EventHandlerRegistry H X)
    (as : List Action) :
    Along (step code) DistinctId (init r) as ↔ Along (step code) FirstRequest (init r) as := by
  have hstep : ∀ (s : State H X) a s', (∀ req ∈ s.built, req.requestId = 0) → FirstRequest s a →
      step code s a = some s' → ∀ req ∈ s'.built, req.requestId = 0 := by
    intro s a s' h _ hs req hreq
    rcases step_built hs with he | ⟨clock, cmdType, module, payload, he⟩
    · exact h req (he ▸ hreq)
    · rw [he] at hreq
      rcases List.mem_append.mp hreq with hreq | hreq
      · exact h req hreq
      · rw [List.mem_singleton.mp hreq]
        rfl
  refine along_congr hstep ?_ (by simp [init]) as
  intro s a h
  cases a with
  | call pid clock cmdType module payload =>
    -- every id is zero, so there may be none before
    constructor
    · intro hdistinct
      refine List.eq_nil_iff_forall_not_mem.mpr fun req hreq => hdistinct req hreq ?_
      rw [h req hreq]
      rfl
    · intro hnone req hreq
      rw [show s.built = [] from hnone] at hreq
      simp at hreq
  | _ => exact Iff.rfl

/-- A call that returns 0 has the answer to its own request as long as only that answer is sent to
its name; and no two requests have distinct ids. -/
theorem replies_correlate (code : HandlerCode H X) (r : EventHandlerRegistry H X)
    (as : List Action) :
    (Along (step code) Undisturbed (init r) as → Along (step code) Answers (init r) as) ∧
    (Along (step code) DistinctId (init r) as ↔ Along (step code) FirstRequest (init r) as) :=
  ⟨answers_of_undisturbed code r as, distinct_iff_first code r as⟩

instance (s : State H X) : DecidablePred (Undisturbed s)
  | .serve _ _ =>
    inferInstanceAs (Decidable (∀ p ∈ s.inbox.head?, ∀ c ∈ s.name p.replyTo, p.call = some c))
  | .foreignSend pid d =>
    inferInstanceAs (Decidable (d.size < mgmtResponseSize ∨ s.name pid = none))
  | .call .. | .run .. | .foreignRequest .. => .isTrue trivial

/-- A ping of process 1 that the router answers. -/
def answeredPing : List Action :=
  [.call 1 ⟨⟨5, 0⟩, 5⟩ 0 (some router) [], .run 0 true, .run 0 true, .run 0 true, .run 0 true,
    .serve ⟨⟨6, 0⟩, 6⟩ true, .run 0 true, .run 0 true, .run 0 true]

theorem answeredPing_correlates :
    Along (step (programCode fun _ => 0)) Answers (init routerRegistry) answeredPing :=
  (replies_correlate (programCode fun _ => 0) routerRegistry answeredPing).1 (by decide)

/-- Another process sends a full datagram to the client before the server has seen the request. -/
def forgedReply : List Action :=
  [.call 1 ⟨⟨5, 0⟩, 5⟩ 0 (some router) [], .run 0 true, .run 0 true, .run 0 true, .run 0 true,
    .foreignSend 1 ⟨2152, .zero⟩, .run 0 true, .run 0 true]

theorem forged_reply_accepted :
    ∃ s, exec (step (programCode fun _ => 0)) (init routerRegistry) forgedReply = some s ∧
      (∃ call, s.calls 0 = some call ∧ call.phase = .cleanup (some .zero)) ∧ s.served = [] ∧
      ¬ Answers s (.run 0 true) ∧ ¬ DistinctId s (.call 1 ⟨⟨6, 0⟩, 6⟩ 0 (some router) []) := by
  obtain ⟨s, hrun, call, hcall, hphase, hserved, hbuilt⟩ :
      ∃ s, exec (step (programCode fun _ => 0)) (init routerRegistry) forgedReply = some s ∧
        ∃ call, s.calls 0 = some call ∧ call.phase = .cleanup (some .zero) ∧ s.served = [] ∧
          s.built = [mgmtRequestInit ⟨⟨5, 0⟩, 5⟩ 0 (some router) []] :=
          ⟨_, rfl, _, rfl, rfl, rfl, rfl⟩
  refine ⟨s, hrun, ⟨call, hcall, hphase⟩, hserved, ?_, ?_⟩
  · intro hanswers
    have hmem := hanswers call .zero hcall hphase
    rw [hserved] at hmem
    simp at hmem
  · intro hdistinct
    rw [DistinctId, hbuilt] at hdistinct
    exact hdistinct _ (List.mem_singleton_self _) rfl

end StudyC.Ctl
