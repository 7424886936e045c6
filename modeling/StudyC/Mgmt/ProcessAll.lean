import StudyC.Mgmt.SocketStats

/-!
# Draining the management socket

`mgmt_socket_process_all` calls `mgmt_socket_process_one` until a call returns a negative value. A
call returns the same value for a socket with nothing on it and for a reply that could not be sent.
-/

open CString

namespace StudyC.Mgmt.ProcessAll

open SocketStats

/-- What the system calls of one round of the loop do, and what is on the stack of the call in it.
-/
structure Round where
  /-- `setsockopt` of the loop. -/
  sockoptOk : Bool
  /-- `setsockopt` of `mgmt_socket_process_one`. -/
  sockoptOneOk : Bool
  /-- `recvfrom` returns the first datagram if there is one. -/
  recvOk : Bool
  stale : Vector UInt8 mgmtRequestSize
  sendOk : Bool
  clock : Clock

/-- `recvfrom` takes the first datagram, and times out if there is none; if it fails, the datagram
stays. -/
def Round.env (round : Round) (pending : List (List UInt8)) : SocketEnv :=
  ⟨round.sockoptOneOk, if round.recvOk then pending.head? else none, round.stale, round.sendOk⟩

structure State (H X : Type) where
  socket : MgmtSocket
  registry : EventHandlerRegistry H X
  processed : Nat
  /-- The requests that went to `handler_dispatch`, with the clock of each call. -/
  dispatched : List (Clock × MgmtCommandRequest)

variable {H X : Type}

/-- One call in the loop. -/
def call (code : HandlerCode H X) (round : Round) (pending : List (List UInt8)) (s : State H X) :
    Int × State H X :=
  let o := mgmtSocketProcessOne code round.clock s.socket 1 (round.env pending) s.registry
  (o.ret, { s with
    socket := o.socket
    registry := o.registry
    dispatched :=
      s.dispatched ++ (received s.socket 1 (round.env pending)).toList.map (round.clock, ·) })

/-- The loop from round `i` on. The result has the datagrams that are left. -/
def loop (code : HandlerCode H X) (rounds : Nat → Round) :
    Nat → List (List UInt8) → State H X → State H X × List (List UInt8)
  | i, [], s => if (rounds i).sockoptOk then ((call code (rounds i) [] s).2, []) else (s, [])
  | i, d :: rest, s =>
    if (rounds i).sockoptOk then
      let (ret, t) := call code (rounds i) (d :: rest) s
      let left :=
        if (received s.socket 1 ((rounds i).env (d :: rest))).isSome then rest else d :: rest
      if ret < 0 then (t, left)
      else loop code rounds (i + 1) rest { t with processed := t.processed + 1 }
    else (s, d :: rest)

structure Outcome (H X : Type) where
  ret : Int
  registry : EventHandlerRegistry H X
  dispatched : List (Clock × MgmtCommandRequest)
  left : List (List UInt8)

def mgmtSocketProcessAll (code : HandlerCode H X) (rounds : Nat → Round) (sock : MgmtSocket)
    (r : EventHandlerRegistry H X) (pending : List (List UInt8)) : Outcome H X :=
  if sock.socketFd < 0 then ⟨-1, r, [], pending⟩
  else
    let (s, left) := loop code rounds 0 pending ⟨sock, r, 0, []⟩
    ⟨s.processed, s.registry, s.dispatched, left⟩

/-- The requests that the datagrams make, and the clocks of the calls that would take them. -/
def requests (rounds : Nat → Round) : Nat → List (List UInt8) → List (Clock × MgmtCommandRequest)
  | _, [] => []
  | i, d :: rest =>
    ((rounds i).clock, requestOfBytes (memcpy (rounds i).stale d)) :: requests rounds (i + 1) rest

def dispatchAll (code : HandlerCode H X) (r : EventHandlerRegistry H X)
    (reqs : List (Clock × MgmtCommandRequest)) : EventHandlerRegistry H X :=
  reqs.foldl (fun r a => (handlerDispatch code a.1 r a.2 .zero).registry) r

/-- Nothing is left, every datagram was dispatched once and in order, and the result is their
number. -/
def Drains (code : HandlerCode H X) (rounds : Nat → Round) (sock : MgmtSocket)
    (r : EventHandlerRegistry H X) (pending : List (List UInt8)) : Prop :=
  let o := mgmtSocketProcessAll code rounds sock r pending
  o.left = [] ∧ o.dispatched = requests rounds 0 pending ∧
    o.registry = dispatchAll code r (requests rounds 0 pending) ∧ o.ret = pending.length

def Round.Ok (round : Round) : Prop :=
  round.sockoptOk = true ∧ round.sockoptOneOk = true ∧ round.recvOk = true ∧ round.sendOk = true

/-! ## One call -/

theorem process_fd (code : HandlerCode H X) (clock : Clock) (sock : MgmtSocket) (timeoutMs : Int)
    (env : SocketEnv) (r : EventHandlerRegistry H X) :
    (mgmtSocketProcessOne code clock sock timeoutMs env r).socket.socketFd = sock.socketFd := by
  unfold mgmtSocketProcessOne
  split
  · rfl
  · split
    · rfl
    · split
      · rfl
      · dsimp only
        split
        · split <;> rfl
        · split <;> rfl

section
variable {s : State H X} (hfd : ¬ s.socket.socketFd < 0) (code : HandlerCode H X) (round : Round)
    (d : List UInt8)
  (rest : List (List UInt8))
include hfd

theorem call_refused (hround : ¬ (round.sockoptOneOk = true ∧ round.recvOk = true)) :
    (call code round (d :: rest) s).1 = -1 ∧ received s.socket 1 (round.env (d :: rest)) =
      none := by
  by_cases hopt : (1 : Int) > 0 ∧ (round.env (d :: rest)).sockoptOk = false
  · constructor
    · simp only [call, mgmtSocketProcessOne, if_neg hfd, if_pos hopt]
    · rw [received, if_neg]
      exact fun h => h.2 hopt
  · have hrecv : (round.env (d :: rest)).datagram = none := by
      have hfail : round.recvOk ≠ true :=
        fun hrecv => hround ⟨by simpa [Round.env] using hopt, hrecv⟩
      simp [Round.env, hfail]
    constructor
    · simp only [call, mgmtSocketProcessOne, if_neg hfd, if_neg hopt, hrecv]
    · rw [received, if_pos ⟨hfd, hopt⟩, hrecv]
      rfl

theorem call_received (hopt : round.sockoptOneOk = true) (hrecv : round.recvOk = true) :
    let req := requestOfBytes (memcpy round.stale d)
    let c := call code round (d :: rest) s
    received s.socket 1 (round.env (d :: rest)) = some req ∧
      c.1 = (if round.sendOk then 0 else -1) ∧ c.2.processed = s.processed ∧
      c.2.dispatched = s.dispatched ++ [(round.clock, req)] ∧
      c.2.registry = (handlerDispatch code round.clock s.registry req .zero).registry ∧
      ¬ c.2.socket.socketFd < 0 := by
  intro req c
  have hopt' : ¬ ((1 : Int) > 0 ∧ (round.env (d :: rest)).sockoptOk = false) := by
    simp [Round.env, hopt]
  have hreceived : received s.socket 1 (round.env (d :: rest)) = some req := by
    rw [received, if_pos ⟨hfd, hopt'⟩]
    simp [Round.env, hrecv, req]
  obtain ⟨hret, hregistry, -⟩ := process_request hreceived code round.clock s.registry
  refine ⟨hreceived, hret, rfl, ?_, hregistry, ?_⟩
  · simp [c, call, hreceived]
  · simp only [c, call, process_fd]
    exact hfd

end

/-! ## The loop -/

/-- What the loop adds to the state it starts from, if it drains the queue. -/
def Adds (code : HandlerCode H X) (rounds : Nat → Round) (i : Nat) (pending : List (List UInt8))
    (s : State H X) : Prop :=
  let o := loop code rounds i pending s
  o.2 = [] ∧ o.1.dispatched = s.dispatched ++ requests rounds i pending ∧
    o.1.registry = dispatchAll code s.registry (requests rounds i pending) ∧
    o.1.processed = s.processed + pending.length

theorem call_idle (code : HandlerCode H X) (round : Round) (s : State H X) :
    (call code round [] s).2 = s := by
  have hnone : received s.socket 1 (round.env []) = none := by
    unfold received
    split <;> simp [Round.env]
  obtain ⟨hsocket, hregistry⟩ := process_idle hnone code round.clock s.registry
  simp [call, hnone, hsocket, hregistry]

theorem loop_nil (code : HandlerCode H X) (rounds : Nat → Round) (i : Nat) (s : State H X) :
    loop code rounds i [] s = (s, []) := by
  unfold loop
  split
  · rw [call_idle]
  · rfl

theorem loop_unanswered (code : HandlerCode H X) {rounds : Nat → Round} {i : Nat}
    (hopt : (rounds i).sockoptOk = true) (hone : (rounds i).sockoptOneOk = true)
    (hrecv : (rounds i).recvOk = true) (hsend : (rounds i).sendOk = false) (d : List UInt8)
    (rest : List (List UInt8)) {s : State H X} (hfd : ¬ s.socket.socketFd < 0) :
    loop code rounds i (d :: rest) s = ((call code (rounds i) (d :: rest) s).2, rest) := by
  obtain ⟨hreceived, hret, -⟩ := call_received hfd code (rounds i) d rest hone hrecv
  rw [loop]
  simp [hopt, hret, hsend, hreceived]

theorem not_adds (code : HandlerCode H X) {rounds : Nat → Round} {i : Nat}
    (hround : ¬ (rounds i).Ok) (d : List UInt8) (rest : List (List UInt8)) {s : State H X}
    (hfd : ¬ s.socket.socketFd < 0) : ¬ Adds code rounds i (d :: rest) s := by
  -- a round that fails leaves its datagram, or does not count it
  rintro ⟨hleft, -, -, hprocessed⟩
  cases hopt : (rounds i).sockoptOk with
  | false => simp [loop, hopt] at hleft
  | true =>
    by_cases htaken : (rounds i).sockoptOneOk = true ∧ (rounds i).recvOk = true
    · obtain ⟨hone, hrecv⟩ := htaken
      have hsend : (rounds i).sendOk = false :=
        Bool.eq_false_iff.mpr fun hsend => hround ⟨hopt, hone, hrecv, hsend⟩
      obtain ⟨-, -, hcount, -⟩ := call_received hfd code (rounds i) d rest hone hrecv
      rw [loop_unanswered code hopt hone hrecv hsend d rest hfd, hcount, List.length_cons]
        at hprocessed
      omega
    · obtain ⟨hret, hnone⟩ := call_refused hfd code (rounds i) d rest htaken
      simp [loop, hopt, hret, hnone] at hleft

theorem adds_cons (code : HandlerCode H X) {rounds : Nat → Round} {i : Nat} (hround : (rounds i).Ok)
    (d : List UInt8) (rest : List (List UInt8)) {s : State H X} (hfd : ¬ s.socket.socketFd < 0) :
    ∃ t : State H X, ¬ t.socket.socketFd < 0 ∧
      (Adds code rounds i (d :: rest) s ↔ Adds code rounds (i + 1) rest t) := by
  obtain ⟨hopt, hone, hrecv, hsend⟩ := hround
  obtain ⟨-, hret, hcount, hdispatched, hregistry, hfd'⟩ :=
    call_received hfd code (rounds i) d rest hone hrecv
  let t := (call code (rounds i) (d :: rest) s).2
  refine ⟨{ t with processed := t.processed + 1 }, hfd', ?_⟩
  have hloop : loop code rounds i (d :: rest) s =
      loop code rounds (i + 1) rest { t with processed := t.processed + 1 } := by
    rw [loop]
    simp [hopt, hret, hsend, t]
  unfold Adds
  rw [hloop]
  simp only [t, hcount, hdispatched, hregistry, requests, dispatchAll, List.foldl_cons,
    List.length_cons, List.append_assoc, List.singleton_append]
  rw [Nat.add_assoc, Nat.add_comm 1]

theorem adds_iff (code : HandlerCode H X) (rounds : Nat → Round) (i : Nat)
    (pending : List (List UInt8)) {s : State H X} (hfd : ¬ s.socket.socketFd < 0) :
    Adds code rounds i pending s ↔ ∀ j < pending.length, (rounds (i + j)).Ok := by
  induction pending generalizing i s with
  | nil => simp [Adds, loop_nil, requests, dispatchAll]
  | cons d rest ih =>
    by_cases hround : (rounds i).Ok
    · obtain ⟨t, hfd', hiff⟩ := adds_cons code hround d rest hfd
      rw [hiff, ih (i + 1) hfd', List.length_cons]
      constructor
      · intro hrest j hj
        cases j with
        | zero => exact hround
        | succ j =>
          have hok := hrest j (by omega)
          rwa [Nat.add_assoc, Nat.add_comm 1] at hok
      · intro hall j hj
        have hok := hall (j + 1) (by omega)
        rwa [Nat.add_comm j, ← Nat.add_assoc] at hok
    · refine iff_of_false (not_adds code hround d rest hfd) ?_
      intro hall
      exact hround (hall 0 (by simp))

/-- The whole queue is processed, and counted, exactly if the socket is open and no system call of
the rounds that take a datagram fails. -/
theorem drains_iff (code : HandlerCode H X) (rounds : Nat → Round) (sock : MgmtSocket)
    (r : EventHandlerRegistry H X) (pending : List (List UInt8)) :
    Drains code rounds sock r pending ↔ ¬ sock.socketFd < 0 ∧ ∀ i < pending.length,
      (rounds i).Ok := by
  unfold Drains mgmtSocketProcessAll
  by_cases hfd : sock.socketFd < 0
  · simp only [hfd, if_true, not_true, false_and, iff_false]
    rintro ⟨-, -, -, hret⟩
    omega
  · have hiff := adds_iff code rounds 0 pending (s := ⟨sock, r, 0, []⟩) hfd
    simp only [Adds, List.nil_append, Nat.zero_add] at hiff
    simp only [hfd, if_false, not_false_eq_true, true_and]
    rw [← hiff, Int.natCast_inj]

theorem first_unanswered (code : HandlerCode H X) {rounds : Nat → Round}
    (hopt : (rounds 0).sockoptOk = true) (hone : (rounds 0).sockoptOneOk = true)
    (hrecv : (rounds 0).recvOk = true) (hsend : (rounds 0).sendOk = false) {sock : MgmtSocket}
    (hfd : ¬ sock.socketFd < 0) (r : EventHandlerRegistry H X) (d : List UInt8)
    (rest : List (List UInt8)) :
    let o := mgmtSocketProcessAll code rounds sock r (d :: rest)
    o.ret = 0 ∧ o.left = rest ∧ o.registry = (handlerDispatch code (rounds 0).clock r
      (requestOfBytes (memcpy (rounds 0).stale d)) .zero).registry := by
  have hloop := loop_unanswered code hopt hone hrecv hsend d rest (s := ⟨sock, r, 0, []⟩) hfd
  obtain ⟨-, -, hcount, -, hregistry, -⟩ :=
    call_received (s := ⟨sock, r, 0, []⟩) hfd code (rounds 0) d rest hone hrecv
  unfold mgmtSocketProcessAll
  rw [if_neg hfd, hloop]
  exact ⟨Int.natCast_eq_zero.mpr hcount, rfl, hregistry⟩

def unansweredFirst (i : Nat) : Round := ⟨true, true, true, .replicate _ 0, i ≠ 0, ⟨⟨5, 0⟩, 5⟩⟩

/-- The first of two clients has closed its socket: the ping of the second stays, and the result is
0. -/
theorem unanswered_client_stops_loop :
    let code : HandlerCode Nat Nat := fun _ clock req _ _ => handlerPing router clock req
    let r : EventHandlerRegistry Nat Nat := (handlerRegister .static (some router) 0 1 0).2
    let o := mgmtSocketProcessAll code unansweredFirst ⟨3, 0, 0, 0⟩ r [stalePing.toList,
      stalePing.toList]
    o.ret = 0 ∧ o.left = [stalePing.toList] ∧ o.registry.totalDispatches = 1 := by
  intro code r o
  obtain ⟨hret, hleft, hregistry⟩ :=
    @first_unanswered _ _ code unansweredFirst rfl rfl rfl rfl ⟨3, 0, 0, 0⟩
    (by decide) r stalePing.toList [stalePing.toList]
  refine ⟨hret, hleft, ?_⟩
  have haccepted : rejects r (requestOfBytes stalePing) = false := by decide +kernel
  rw [hregistry, memcpy_vector, (dispatch_accepted haccepted code _ _).1]
  rfl

end StudyC.Mgmt.ProcessAll
