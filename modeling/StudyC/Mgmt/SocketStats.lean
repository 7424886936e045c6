import StudyC.Mgmt.Socket

/-!
# Two layers of statistics

The socket counts the requests that it receives, the registry the dispatches that reach a handler.
Both counters move in one call of `mgmt_socket_process_one`, on different branches.
-/

open CString

namespace StudyC.Mgmt.SocketStats

variable {H X : Type}

structure State (H X : Type) where
  socket : MgmtSocket
  registry : EventHandlerRegistry H X
  /-- Requests that were invalid or matched no entry. -/
  rejected : Nat
  /-- Requests whose `sendto` failed. -/
  unsent : Nat

inductive Action (H X : Type) where
  | process (code : HandlerCode H X) (clock : Clock) (timeoutMs : Int) (env : SocketEnv)
  | register (moduleName : Option CStr) (cmdType : UInt8) (handler : H) (context : X)
  | unregister (moduleName : Option CStr) (cmdType : UInt8)

/-- The request that a call receives, if it gets as far and `recvfrom` succeeds. -/
def received (sock : MgmtSocket) (timeoutMs : Int) (env : SocketEnv) : Option MgmtCommandRequest :=
  if Receives sock timeoutMs env.sockoptOk then
    env.datagram.map fun d => requestOfBytes (memcpy env.stale d)
  else none

def rejects (r : EventHandlerRegistry H X) (req : MgmtCommandRequest) : Bool :=
  !mgmtRequestValidate req || (r.findEntry req.cmdType req.targetModule.toList).isNone

def perform [Zero H] [DecidableEq H] (s : State H X) : Action H X → State H X
  | .process code clock timeoutMs env =>
    let o := mgmtSocketProcessOne code clock s.socket timeoutMs env s.registry
    match received s.socket timeoutMs env with
    | none => { s with socket := o.socket, registry := o.registry }
    | some req =>
      { socket := o.socket
        registry := o.registry
        rejected := if rejects s.registry req then s.rejected + 1 else s.rejected
        unsent := if env.sendOk then s.unsent else s.unsent + 1 }
  | .register m c handler context =>
    { s with registry := (handlerRegister s.registry m c handler context).2 }
  | .unregister m c => { s with registry := (handlerUnregister s.registry m c).2 }

/-- Any entries, and every counter zero. -/
def start (fd : Int) (r : EventHandlerRegistry H X) : State H X :=
  ⟨⟨fd, 0, 0, 0⟩, { r with totalDispatches := 0, totalFailures := 0 }, 0, 0⟩

/-! ## One call -/

theorem process_idle {sock : MgmtSocket} {timeoutMs : Int} {env : SocketEnv}
    (h : received sock timeoutMs env = none) (code : HandlerCode H X) (clock : Clock)
    (r : EventHandlerRegistry H X) :
    (mgmtSocketProcessOne code clock sock timeoutMs env r).socket = sock ∧
      (mgmtSocketProcessOne code clock sock timeoutMs env r).registry = r := by
  unfold mgmtSocketProcessOne
  split
  · exact ⟨rfl, rfl⟩
  · rename_i hfd
    split
    · exact ⟨rfl, rfl⟩
    · rename_i hopt
      rw [received, if_pos ⟨hfd, hopt⟩, Option.map_eq_none_iff] at h
      rw [h]
      exact ⟨rfl, rfl⟩

theorem process_request {sock : MgmtSocket} {timeoutMs : Int} {env : SocketEnv}
    {req : MgmtCommandRequest} (h : received sock timeoutMs env = some req) (code : HandlerCode H X)
    (clock : Clock) (r : EventHandlerRegistry H X) :
    let o := mgmtSocketProcessOne code clock sock timeoutMs env r
    let dispatched := handlerDispatch code clock r req .zero
    o.ret = (if env.sendOk then 0 else -1) ∧ o.registry = dispatched.registry ∧
      o.socket.totalRequests = sock.totalRequests + 1 ∧
      o.socket.failedRequests =
        (if dispatched.ret ≠ 0 then sock.failedRequests + 1 else sock.failedRequests) ∧
      o.socket.totalResponses = if env.sendOk then sock.totalResponses + 1
        else sock.totalResponses := by
  unfold received at h
  split at h
  · rename_i hreceives
    obtain ⟨d, hd, rfl⟩ := Option.map_eq_some_iff.mp h
    obtain ⟨hfd, hopt⟩ := hreceives
    unfold mgmtSocketProcessOne
    rw [if_neg hfd, if_neg hopt, hd]
    dsimp only
    generalize handlerDispatch code clock r _ _ = dispatched
    by_cases hret : dispatched.ret = 0 <;> cases env.sendOk <;> simp [hret]
  · simp at h

theorem dispatch_rejected {r : EventHandlerRegistry H X} {req : MgmtCommandRequest}
    (h : rejects r req = true) (code : HandlerCode H X) (clock : Clock)
    (resp : MgmtCommandResponse) :
    (handlerDispatch code clock r req resp).registry = r ∧
      (handlerDispatch code clock r req resp).ret ≠ 0 := by
  unfold rejects at h
  rcases handlerDispatch_cases code clock r req resp with
      ⟨-, he⟩ | ⟨-, -, he⟩ | ⟨hv, slot, e, hp, -⟩
  · rw [he]; exact ⟨rfl, by simp⟩
  · rw [he]; exact ⟨rfl, by simp⟩
  · have hfound : r.findEntry req.cmdType req.targetModule.toList = none := by simpa [hv] using h
    have hplace : r.place req.key = none := findEntry_none hfound
    rw [hplace] at hp
    simp at hp

theorem dispatch_accepted {r : EventHandlerRegistry H X} {req : MgmtCommandRequest}
    (h : rejects r req = false) (code : HandlerCode H X) (clock : Clock)
    (resp : MgmtCommandResponse) :
    let o := handlerDispatch code clock r req resp
    o.registry.totalDispatches = r.totalDispatches + 1 ∧
      o.registry.totalFailures = if o.ret ≠ 0 then r.totalFailures + 1 else r.totalFailures := by
  unfold rejects at h
  rcases handlerDispatch_cases code clock r req resp with
      ⟨hv, -⟩ | ⟨-, hp, -⟩ | ⟨-, slot, e, -, -, he⟩
  · simp [hv] at h
  · have hfound : (r.findEntry req.cmdType req.targetModule.toList).map Fin.val = none :=
      (findEntry_val r _ _).trans hp
    simp [Option.map_eq_none_iff.mp hfound] at h
  · rw [he]
    exact ⟨rfl, rfl⟩

/-! ## Runs -/

/-- The differences between the counters, as sums. -/
structure Inv (s : State H X) : Prop where
  sent : s.socket.totalRequests = s.socket.totalResponses + .ofNat s.unsent
  reached : s.socket.totalRequests.toUInt32 = s.registry.totalDispatches + .ofNat s.rejected
  failed : s.socket.failedRequests.toUInt32 = s.registry.totalFailures + .ofNat s.rejected

theorem Inv.of_totals {s : State H X} (h : Inv s) {r : EventHandlerRegistry H X}
    (hd : r.totalDispatches = s.registry.totalDispatches)
    (hf : r.totalFailures = s.registry.totalFailures) : Inv { s with registry := r } :=
  ⟨h.sent, by simpa only [hd] using h.reached, by simpa only [hf] using h.failed⟩

theorem register_totals [Zero H] [DecidableEq H] (r : EventHandlerRegistry H X) (m : Option CStr)
    (c : UInt8) (handler : H) (context : X) :
    (handlerRegister r m c handler context).2.totalDispatches = r.totalDispatches ∧
      (handlerRegister r m c handler context).2.totalFailures = r.totalFailures := by
  rcases m with _ | m
  · exact ⟨rfl, rfl⟩
  rcases handlerRegister_cases r m c handler context with
      ⟨he, -⟩ | ⟨-, i, -, he⟩ | ⟨-, -, -, old, he⟩
  all_goals rw [he]; exact ⟨rfl, rfl⟩

theorem unregister_totals (r : EventHandlerRegistry H X) (m : Option CStr) (c : UInt8) :
    (handlerUnregister r m c).2.totalDispatches = r.totalDispatches ∧
      (handlerUnregister r m c).2.totalFailures = r.totalFailures := by
  rcases m with _ | m
  · exact ⟨rfl, rfl⟩
  rcases handlerUnregister_cases r m c with ⟨-, he⟩ | ⟨i, -, -, he⟩
  all_goals rw [he]; exact ⟨rfl, rfl⟩

theorem process_inv [Zero H] [DecidableEq H] {s : State H X} (h : Inv s) (code : HandlerCode H X)
    (clock : Clock) (timeoutMs : Int) (env : SocketEnv) :
    Inv (perform s (.process code clock timeoutMs env)) := by
  cases hreq : received s.socket timeoutMs env with
  | none =>
    obtain ⟨hsock, hreg⟩ := process_idle hreq code clock s.registry
    have hs : perform s (.process code clock timeoutMs env) = s := by
      simp only [perform, hreq, hsock, hreg]
    rw [hs]
    exact h
  | some req =>
    obtain ⟨-, hreg, hrequests, hfailed, hresponses⟩ := process_request hreq code clock s.registry
    unfold perform
    simp only [hreq]
    refine ⟨?_, ?_, ?_⟩ <;> dsimp only
    · rw [hrequests, hresponses, h.sent]
      cases env.sendOk <;> simp <;> ac_rfl
    · rw [hrequests, hreg, UInt64.toUInt32_add, h.reached]
      cases hrejects : rejects s.registry req with
      | true => simp [(dispatch_rejected hrejects code clock .zero).1, UInt32.add_assoc]
      | false =>
        rw [(dispatch_accepted hrejects code clock .zero).1]
        simp only [Bool.false_eq_true, if_false]
        ac_rfl
    · rw [hfailed, hreg]
      cases hrejects : rejects s.registry req with
      | true =>
        obtain ⟨hsame, hret⟩ := dispatch_rejected hrejects code clock .zero
        simp [hsame, hret, h.failed, UInt32.add_assoc]
      | false =>
        rw [(dispatch_accepted hrejects code clock .zero).2]
        by_cases hret : (handlerDispatch code clock s.registry req .zero).ret = 0
        · simp [hret, h.failed]
        · simp [hret, h.failed]
          ac_rfl

theorem perform_inv [Zero H] [DecidableEq H] {s : State H X} (h : Inv s) (a : Action H X) :
    Inv (perform s a) := by
  cases a with
  | process code clock timeoutMs env => exact process_inv h code clock timeoutMs env
  | register m c handler context =>
    obtain ⟨hd, hf⟩ := register_totals s.registry m c handler context
    exact h.of_totals hd hf
  | unregister m c =>
    obtain ⟨hd, hf⟩ := unregister_totals s.registry m c
    exact h.of_totals hd hf

theorem run_inv [Zero H] [DecidableEq H] (fd : Int) (r : EventHandlerRegistry H X)
    (as : List (Action H X)) : Inv (as.foldl perform (start fd r)) :=
  List.foldlRecOn as perform ⟨rfl, rfl, rfl⟩ fun _ h a _ => perform_inv h a

theorem statistics_layers_agree [Zero H] [DecidableEq H] (fd : Int) (r : EventHandlerRegistry H X)
    (as : List (Action H X)) :
    let s := as.foldl perform (start fd r)
    (s.socket.totalRequests - s.socket.failedRequests).toUInt32 =
        s.registry.totalDispatches - s.registry.totalFailures ∧
      s.socket.totalRequests.toUInt32 - s.registry.totalDispatches = .ofNat s.rejected ∧
      s.socket.totalRequests - s.socket.totalResponses = .ofNat s.unsent := by
  intro s
  have h : Inv s := run_inv fd r as
  refine ⟨?_, ?_, ?_⟩
  · rw [UInt64.toUInt32_sub, h.reached, h.failed]
    grind
  · rw [h.reached]
    grind
  · rw [h.sent]
    grind

end StudyC.Mgmt.SocketStats
