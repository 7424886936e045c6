import StudyC.Mgmt.Interleaving
import StudyC.Mgmt.RegistryMap

/-!
# The management socket

`mgmt_socket_process_one` receives a datagram into a local request buffer that nothing clears. The
datagram fills the front of the buffer, and the bytes behind it are those of earlier calls.
-/

open CString KeyedList Runs

namespace StudyC.Mgmt

/-- `sizeof(MgmtCommandRequest)`. -/
def mgmtRequestSize : Nat := 600

def leNat : List UInt8 → Nat
  | [] => 0
  | b :: l => b.toNat + 256 * leNat l

def field (b : Vector UInt8 mgmtRequestSize) (off size : Nat) (h : off + size ≤ mgmtRequestSize) :
    Vector UInt8 size :=
  Vector.ofFn fun i => b[off + i.val]

/-- The buffer read as the structure, on a little-endian machine. -/
def requestOfBytes (b : Vector UInt8 mgmtRequestSize) : MgmtCommandRequest where
  requestId := .ofNat (leNat (field b 0 4 (by decide)).toList)
  cmdType := b[4]
  flags := b[5]
  payloadLen := .ofNat (leNat (field b 6 2 (by decide)).toList)
  timestamp :=
    ⟨(UInt64.ofNat (leNat (field b 8 8 (by decide)).toList)).toInt64,
      (UInt64.ofNat (leNat (field b 16 8 (by decide)).toList)).toInt64⟩
  targetModule := field b 24 mgmtModuleNameSize (by decide)
  payload := field b 88 mgmtPayloadRequestSize (by decide)

structure MgmtSocket where
  socketFd : Int
  totalRequests : UInt64
  totalResponses : UInt64
  failedRequests : UInt64

/-- What the system calls of one call do, and what is on the stack before it. -/
structure SocketEnv where
  sockoptOk : Bool
  /-- The datagram that `recvfrom` delivers, unless it fails or times out. -/
  datagram : Option (List UInt8)
  stale : Vector UInt8 mgmtRequestSize
  sendOk : Bool

structure ProcessOutcome (H X : Type) where
  ret : Int
  socket : MgmtSocket
  registry : EventHandlerRegistry H X
  sent : Option MgmtCommandResponse
  invoked : Option (H × X)

variable {H X : Type}

def mgmtSocketProcessOne (code : HandlerCode H X) (clock : Clock) (sock : MgmtSocket)
    (timeoutMs : Int) (env : SocketEnv) (r : EventHandlerRegistry H X) : ProcessOutcome H X :=
  if sock.socketFd < 0 then ⟨-1, sock, r, none, none⟩
  else if timeoutMs > 0 ∧ env.sockoptOk = false then ⟨-1, sock, r, none, none⟩
  else match env.datagram with
  | none => ⟨-1, sock, r, none, none⟩
  | some d =>
    -- `recvfrom` cuts a datagram that is longer than the buffer.
    let req := requestOfBytes (memcpy env.stale d)
    let sock := { sock with totalRequests := sock.totalRequests + 1 }
    let o := handlerDispatch code clock r req .zero
    let sock := if o.ret ≠ 0 then { sock with failedRequests := sock.failedRequests + 1 } else sock
    if env.sendOk = false then ⟨-1, sock, o.registry, some o.resp, o.invoked⟩
    else
      ⟨0, { sock with totalResponses := sock.totalResponses + 1 }, o.registry, some o.resp,
        o.invoked⟩

/-! ## What the datagram decides by itself -/

/-- The bytes that arrived are enough to reject the request: a bad command type, an empty target, a
payload length out of range, or a target name with no end. -/
def RejectedByItsBytes (d : List UInt8) : Prop :=
  (∃ c, d[4]? = some c ∧ mgmtCmdMax ≤ c.toNat) ∨
  d[24]? = some 0 ∨
  (8 ≤ d.length ∧ mgmtPayloadRequestSize < leNat ((d.drop 6).take 2)) ∨
  (88 ≤ d.length ∧ 0 ∉ (d.drop 24).take mgmtModuleNameSize)

theorem field_get (b : Vector UInt8 mgmtRequestSize) {off size : Nat}
    (h : off + size ≤ mgmtRequestSize) {i : Nat} (hi : i < size) :
    (field b off size h)[i] = b[off + i] := by
  simp [field]

theorem field_memcpy (stale : Vector UInt8 mgmtRequestSize) {d : List UInt8} {off size : Nat}
    (h : off + size ≤ mgmtRequestSize) (hd : off + size ≤ d.length) :
    (field (memcpy stale d) off size h).toList = (d.drop off).take size := by
  apply List.ext_getElem
  · simp; omega
  · intro i h1 h2
    have hi : i < size := by simpa using h1
    have hlt : off + i < d.length := by omega
    rw [Vector.getElem_toList, field_get _ _ hi, memcpy_get]
    simp [hlt]

theorem requestOfBytes_cmdType (stale : Vector UInt8 mgmtRequestSize) (d : List UInt8) :
    (requestOfBytes (memcpy stale d)).cmdType = d.getD 4 stale[4] :=
  memcpy_get _ _ _

theorem requestOfBytes_target (stale : Vector UInt8 mgmtRequestSize) (d : List UInt8) :
    (requestOfBytes (memcpy stale d)).targetModule[0] = d.getD 24 stale[24] := by
  have hget : (requestOfBytes (memcpy stale d)).targetModule[0] = (memcpy stale d)[24] :=
    field_get _ (by decide) (by decide)
  rw [hget, memcpy_get]

theorem leNat_lt (l : List UInt8) : leNat l < 256 ^ l.length := by
  induction l with
  | nil => decide
  | cons b l ih =>
    have hb := b.toNat_lt
    rw [leNat, List.length_cons, Nat.pow_succ]
    omega

theorem requestOfBytes_payloadLen (b : Vector UInt8 mgmtRequestSize) :
    (requestOfBytes b).payloadLen.toNat = leNat (field b 6 2 (by decide)).toList := by
  have hlt := leNat_lt (field b 6 2 (by decide)).toList
  rw [Vector.length_toList] at hlt
  simp only [requestOfBytes, UInt16.toNat_ofNat']
  exact Nat.mod_eq_of_lt hlt

theorem place_unterminated {d : List UInt8} (hlen : 88 ≤ d.length)
    (hnul : 0 ∉ (d.drop 24).take mgmtModuleNameSize) {r : EventHandlerRegistry H X}
    (hr : r.ShortNames) (stale : Vector UInt8 mgmtRequestSize) :
    r.place (requestOfBytes (memcpy stale d)).key = none := by
  -- a target field without a NUL names no module: stored names are shorter than the field
  have hfield : (requestOfBytes (memcpy stale d)).targetModule.toList =
      (d.drop 24).take mgmtModuleNameSize :=
    field_memcpy stale (by decide) hlen
  have hname : (requestOfBytes (memcpy stale d)).key.2 = (d.drop 24).take mgmtModuleNameSize := by
    rw [MgmtCommandRequest.key, hfield]
    exact cstr_of_nonul (nonul_iff.mpr hnul)
  cases hp : r.place (requestOfBytes (memcpy stale d)).key with
  | none => rfl
  | some i =>
    have hlt := hr _ (mem_keys_of_place hp)
    rw [hname, ← hfield, Vector.length_toList] at hlt
    omega

theorem validate_known {d : List UInt8} (hlen : 88 ≤ d.length)
    (stale stale' : Vector UInt8 mgmtRequestSize) :
    mgmtRequestValidate (requestOfBytes (memcpy stale d)) =
      mgmtRequestValidate (requestOfBytes (memcpy stale' d)) := by
  have hget : ∀ i < 88, ∀ x y : UInt8, d.getD i x = d.getD i y := by
    intro i hi x y
    rw [getD_eq_of_some (List.getElem?_eq_getElem (by omega)),
      getD_eq_of_some (List.getElem?_eq_getElem (by omega))]
  rw [Bool.eq_iff_iff, validate_iff, validate_iff, requestOfBytes_cmdType, requestOfBytes_cmdType,
    requestOfBytes_target, requestOfBytes_target, requestOfBytes_payloadLen,
    requestOfBytes_payloadLen, field_memcpy _ _ (by omega), field_memcpy _ _ (by omega),
    hget 4 (by omega) _ stale'[4], hget 24 (by omega) _ stale'[24]]

theorem rejected_outcome {d : List UInt8} (hd : RejectedByItsBytes d) {r : EventHandlerRegistry H X}
    (hr : r.ShortNames) (code : HandlerCode H X) (clock : Clock) :
    ∃ resp, ∀ stale,
      (handlerDispatch code clock r (requestOfBytes (memcpy stale d)) .zero).invoked = none ∧
      (handlerDispatch code clock r (requestOfBytes (memcpy stale d)) .zero).resp = resp := by
  -- a request that the received bytes reject reaches no handler and is answered in the same
  -- way, whatever stands behind them
  have hinvalid : (∀ stale, mgmtRequestValidate (requestOfBytes (memcpy stale d)) = false) →
      ∃ resp, ∀ stale,
      (handlerDispatch code clock r (requestOfBytes (memcpy stale d)) .zero).invoked = none ∧
        (handlerDispatch code clock r (requestOfBytes (memcpy stale d)) .zero).resp = resp := by
    intro hv
    refine ⟨{ MgmtCommandResponse.zero with resultCode := MgmtResultCode.invalidCmd.code },
      fun stale => ?_⟩
    rcases handlerDispatch_cases code clock r (requestOfBytes (memcpy stale d)) .zero with
      ⟨-, he⟩ | ⟨hv', -⟩ | ⟨hv', -⟩
    · rw [he]; exact ⟨rfl, rfl⟩
    · rw [hv] at hv'; simp at hv'
    · rw [hv] at hv'; simp at hv'
  rcases hd with ⟨c, hc, hbig⟩ | hzero | ⟨hlen, hbig⟩ | ⟨hlen, hnul⟩
  · refine hinvalid fun stale => Bool.eq_false_iff.mpr fun hv => ?_
    have hcmd := ((validate_iff _).mp hv).1
    rw [requestOfBytes_cmdType, getD_eq_of_some hc] at hcmd
    omega
  · refine hinvalid fun stale => Bool.eq_false_iff.mpr fun hv => ?_
    have htarget := ((validate_iff _).mp hv).2.1
    rw [requestOfBytes_target, getD_eq_of_some hzero] at htarget
    exact htarget rfl
  · refine hinvalid fun stale => Bool.eq_false_iff.mpr fun hv => ?_
    have hpay := ((validate_iff _).mp hv).2.2
    rw [requestOfBytes_payloadLen, field_memcpy _ _ hlen] at hpay
    omega
  · have hplace := place_unterminated hlen hnul hr
    have hknown := fun stale => validate_known hlen stale (.replicate _ 0)
    cases hv : mgmtRequestValidate (requestOfBytes (memcpy (.replicate _ 0) d)) with
    | false => exact hinvalid fun stale => (hknown stale).trans hv
    | true =>
      refine ⟨{ MgmtCommandResponse.zero with resultCode := MgmtResultCode.moduleNotFound.code },
        fun stale => ?_⟩
      rcases handlerDispatch_cases code clock r (requestOfBytes (memcpy stale d)) .zero with
        ⟨hv', -⟩ | ⟨-, -, he⟩ | ⟨-, slot, e, hp, -⟩
      · rw [hknown, hv] at hv'; simp at hv'
      · rw [he]; exact ⟨rfl, rfl⟩
      · rw [hplace] at hp; simp at hp

/-! ## A datagram that leaves something open -/

/-- A stale buffer that makes a valid ping to module `a` out of nothing. -/
def template (last : UInt8) : Vector UInt8 mgmtRequestSize :=
  Vector.ofFn fun i => if i.val = 24 then 97 else if i.val = 599 then last else 0

theorem template_get (last : UInt8) {i : Nat} (h : i < mgmtRequestSize) :
    (template last)[i] = if i = 24 then 97 else if i = 599 then last else 0 := by
  simp [template]

section
variable {d : List UInt8} (hd : ¬ RejectedByItsBytes d)
include hd

theorem completed_valid (last : UInt8) :
    mgmtRequestValidate (requestOfBytes (memcpy (template last) d)) = true := by
  have hcmd : (d.getD 4 0).toNat < mgmtCmdMax := by
    cases h4 : d[4]? with
    | none => rw [List.getD_eq_getElem?_getD, h4]; decide
    | some c =>
      rw [getD_eq_of_some h4]
      by_contra hbig
      exact hd (Or.inl ⟨c, h4, by omega⟩)
  have htarget : d.getD 24 97 ≠ 0 := by
    cases h24 : d[24]? with
    | none => rw [List.getD_eq_getElem?_getD, h24]; decide
    | some c =>
      rw [getD_eq_of_some h24]
      rintro rfl
      exact hd (Or.inr (Or.inl h24))
  have hlen : leNat (field (memcpy (template last) d) 6 2 (by decide)).toList ≤
      mgmtPayloadRequestSize := by
    rcases Nat.lt_or_ge d.length 8 with hlt | hge
    · -- The high byte of the length is a stale zero.
      have hfield : (field (memcpy (template last) d) 6 2 (by decide)).toList =
          [(memcpy (template last) d)[6], (memcpy (template last) d)[7]] := rfl
      have hhigh : (memcpy (template last) d)[7] = 0 := by
        rw [memcpy_get, List.getD_eq_getElem?_getD, List.getElem?_eq_none (by omega), template_get]
        rfl
      have hlow := ((memcpy (template last) d)[6]).toNat_lt
      rw [hfield, hhigh]
      simp only [leNat, mgmtPayloadRequestSize, UInt8.toNat_zero]
      omega
    · rw [field_memcpy _ _ hge]
      by_contra hbig
      exact hd (Or.inr (Or.inr (Or.inl ⟨hge, by omega⟩)))
  rw [validate_iff, requestOfBytes_cmdType, requestOfBytes_target, requestOfBytes_payloadLen,
    template_get, template_get]
  exact ⟨hcmd, htarget, hlen⟩

theorem completed_terminated (last : UInt8) :
    0 ∈ (requestOfBytes (memcpy (template last) d)).targetModule.toList := by
  rcases Nat.lt_or_ge d.length 88 with hlt | hge
  · have hend : (requestOfBytes (memcpy (template last) d)).targetModule[63] = 0 := by
      have hget : (requestOfBytes (memcpy (template last) d)).targetModule[63] =
          (memcpy (template last) d)[87] := field_get _ (by decide) (by decide)
      rw [hget, memcpy_get, List.getD_eq_getElem?_getD, List.getElem?_eq_none (by omega),
        template_get]
      rfl
    rw [← hend]
    simp
  · have hfield : (requestOfBytes (memcpy (template last) d)).targetModule.toList =
        (d.drop 24).take mgmtModuleNameSize := field_memcpy _ (by decide) hge
    rw [hfield]
    by_contra hnul
    exact hd (Or.inr (Or.inr (Or.inr ⟨hge, hnul⟩)))

end

theorem completed_key (d : List UInt8) (last last' : UInt8) :
    (requestOfBytes (memcpy (template last) d)).key =
      (requestOfBytes (memcpy (template last') d)).key := by
  -- the two completions differ in the last payload byte only
  have hbyte : ∀ i (h : i < mgmtRequestSize), i ≠ 599 →
      (memcpy (template last) d)[i] = (memcpy (template last') d)[i] := by
    intro i h hne
    rw [memcpy_get, memcpy_get, template_get, template_get, if_neg hne, if_neg hne]
  have htarget : (requestOfBytes (memcpy (template last) d)).targetModule =
      (requestOfBytes (memcpy (template last') d)).targetModule := by
    apply Vector.ext
    intro i hi
    have hlt : i < 64 := hi
    have hoff : 24 + mgmtModuleNameSize ≤ mgmtRequestSize := by decide
    have hbytes := hbyte (24 + i) (by omega) (by omega)
    exact (field_get _ hoff hi).trans (hbytes.trans (field_get _ hoff hi).symm)
  have hcmd : (requestOfBytes (memcpy (template last) d)).cmdType =
      (requestOfBytes (memcpy (template last') d)).cmdType := hbyte 4 (by decide) (by decide)
  rw [MgmtCommandRequest.key, MgmtCommandRequest.key, htarget, hcmd]

theorem completed_last {d : List UInt8} (hlen : d.length < mgmtRequestSize) (last : UInt8) :
    (requestOfBytes (memcpy (template last) d)).payload[511] = last := by
  have hget : (requestOfBytes (memcpy (template last) d)).payload[511] =
      (memcpy (template last) d)[599] :=
    field_get _ (by decide) (by decide)
  have hle : d.length ≤ 599 := Nat.le_of_lt_succ hlen
  rw [hget, memcpy_get, List.getD_eq_getElem?_getD, List.getElem?_eq_none hle, template_get]
  rfl

def echoLast : HandlerCode H X := fun _ _ req resp _ =>
  (0, { resp with payload := memcpy resp.payload [req.payload[511]] })

theorem echoLast_payload (clock : Clock) {r : EventHandlerRegistry H X} {req : MgmtCommandRequest}
    (resp : MgmtCommandResponse) (hv : mgmtRequestValidate req = true)
    (hp : r.place req.key ≠ none) :
    (handlerDispatch echoLast clock r req resp).resp.payload[0] = req.payload[511] := by
  rcases handlerDispatch_cases echoLast clock r req resp with
      ⟨hv', -⟩ | ⟨-, hp', -⟩ | ⟨-, slot, e, -, -, he⟩
  · rw [hv] at hv'; simp at hv'
  · exact absurd hp' hp
  · have hpayload : (handlerDispatch echoLast clock r req resp).resp.payload =
        memcpy resp.payload [req.payload[511]] := by
      rw [he]
      exact dispatchAccount_payload r slot _ _
    simp only [hpayload]
    rw [memcpy_get]
    rfl

/-! ## Two runs -/

structure Pointer where
  address : UInt64
  deriving DecidableEq

instance : Zero Pointer := ⟨⟨0⟩⟩

/-- In every reachable registry, the handler called and the response sent are the same for any two
contents of the request buffer before the call. -/
def DatagramDecides (d : List UInt8) : Prop :=
  ∀ (s : Interleaving.State Nat Pointer Pointer), Reachable Interleaving.step Interleaving.init s →
  ∀ code clock sock timeoutMs sockoptOk sendOk stale stale',
    let o := mgmtSocketProcessOne code clock sock timeoutMs ⟨sockoptOk, some d, stale, sendOk⟩
        s.registry
    let o' := mgmtSocketProcessOne code clock sock timeoutMs ⟨sockoptOk, some d, stale', sendOk⟩
        s.registry
    o.invoked = o'.invoked ∧ o.sent = o'.sent

abbrev Receives (sock : MgmtSocket) (timeoutMs : Int) (sockoptOk : Bool) : Prop :=
  ¬ sock.socketFd < 0 ∧ ¬ (timeoutMs > 0 ∧ sockoptOk = false)

theorem process_answer (code : HandlerCode H X) (clock : Clock) (sock : MgmtSocket)
    (timeoutMs : Int) (sockoptOk sendOk : Bool) (d : List UInt8) (r : EventHandlerRegistry H X)
    (stale : Vector UInt8 mgmtRequestSize) :
    let o := mgmtSocketProcessOne code clock sock timeoutMs ⟨sockoptOk, some d, stale, sendOk⟩ r
    let reply := handlerDispatch code clock r (requestOfBytes (memcpy stale d)) .zero
    o.invoked = (if Receives sock timeoutMs sockoptOk then reply.invoked else none) ∧
      o.sent = if Receives sock timeoutMs sockoptOk then some reply.resp else none := by
  intro o reply
  unfold o mgmtSocketProcessOne
  by_cases hfd : sock.socketFd < 0
  · simp [hfd]
  · by_cases ht : timeoutMs > 0 ∧ sockoptOk = false
    · simp [hfd, ht]
    · cases sendOk
      · simp [hfd, ht, reply]
      · simp [hfd, ht, reply]

theorem exists_registered {req : MgmtCommandRequest} (hv : mgmtRequestValidate req = true)
    (hterm : 0 ∈ req.targetModule.toList) :
    ∃ s : Interleaving.State Nat Pointer Pointer, Reachable Interleaving.step Interleaving.init s ∧
      s.registry.place req.key ≠ none := by
  let m : CStr := ⟨cstr req.targetModule.toList, cstr_nonul _⟩
  have hr : Registrable req.cmdType (⟨1⟩ : Pointer) := ⟨by decide, ((validate_iff _).mp hv).1⟩
  have hlen : m.bytes.length < mgmtModuleNameSize :=
    lt_of_lt_of_eq (cstr_length_lt hterm) Vector.length_toList
  have hu : (Interleaving.init : Interleaving.State Nat Pointer Pointer).registry.UniqueKeys :=
    List.nodup_nil
  have href := register_refines (x := (0 : Pointer)) hu hlen hr
  refine ⟨_, ⟨[.register (some m) req.cmdType ⟨1⟩ 0], rfl⟩, ?_⟩
  rw [HandlerMap.register, if_pos (Or.inr (by rw [ncard_toMap hu]; decide))] at href
  rw [Ne, ← toMap_none_iff]
  simp only [(Prod.mk.inj href).2, MgmtCommandRequest.key, m, Function.update_self]
  exact Option.some_ne_none _

/-- What the buffer held before does not matter exactly if the datagram fills the request or its own
bytes already reject it. -/
theorem datagram_decides_iff (d : List UInt8) :
    DatagramDecides d ↔ mgmtRequestSize ≤ d.length ∨ RejectedByItsBytes d := by
  constructor
  · intro hdec
    by_contra hopen
    rw [not_or, Nat.not_le] at hopen
    obtain ⟨hlen, hd⟩ := hopen
    have hkey := completed_key d 0 1
    obtain ⟨s, hs, hp⟩ := exists_registered (completed_valid hd 0) (completed_terminated hd 0)
    have h0 := echoLast_payload ⟨⟨0, 0⟩, 0⟩ .zero (completed_valid hd 0) hp
    have hp' : s.registry.place (requestOfBytes (memcpy (template 1) d)).key ≠ none := by
      rw [← hkey]
      exact hp
    have h1 := echoLast_payload ⟨⟨0, 0⟩, 0⟩ .zero (completed_valid hd 1) hp'
    have hsent :=
      (hdec s hs echoLast ⟨⟨0, 0⟩, 0⟩ ⟨3, 0, 0, 0⟩ 0 true true (template 0) (template 1)).2
    have hans := fun stale =>
        (process_answer echoLast ⟨⟨0, 0⟩, 0⟩ ⟨3, 0, 0, 0⟩ 0 true true d s.registry stale).2
    rw [hans, hans, if_pos (by decide), if_pos (by decide), Option.some.injEq] at hsent
    rw [hsent, h1, completed_last hlen, completed_last hlen] at h0
    simp at h0
  · intro hcond s hs code clock sock timeoutMs sockoptOk sendOk stale stale' o o'
    have hans := process_answer code clock sock timeoutMs sockoptOk sendOk d s.registry
    rw [(hans stale).1, (hans stale').1, (hans stale).2, (hans stale').2]
    rcases hcond with hfull | hrej
    · rw [memcpy_full stale stale' hfull]
      exact ⟨rfl, rfl⟩
    · obtain ⟨resp, hout⟩ := rejected_outcome hrej (Interleaving.reachable_shortNames hs) code clock
      rw [(hout stale).1, (hout stale).2, (hout stale').1, (hout stale').2]
      exact ⟨rfl, rfl⟩

/-- `handler_ping`, the same in the three programs up to the name of the module. -/
def handlerPing (module : CStr) (clock : Clock) (req : MgmtCommandRequest) :
    Int × MgmtCommandResponse :=
  (0, mgmtResponseInit clock req.requestId MgmtResultCode.ok.code (some module)
    (ascii "pong" ++ [0]))

def router : CStr := .lit "router"

def stalePing : Vector UInt8 mgmtRequestSize :=
  Vector.ofFn fun i => if i.val < 24 then 0 else router.bytes.getD (i.val - 24) 0

theorem empty_datagram_reruns_ping :
    let code : HandlerCode Pointer Pointer := fun _ clock req _ _ => handlerPing router clock req
    let receive stale r := mgmtSocketProcessOne code ⟨⟨5, 0⟩, 5⟩ ⟨3, 0, 0, 0⟩ 1000 ⟨true, some [],
      stale, true⟩ r
    ∃ s : Interleaving.State Nat Pointer Pointer, Reachable Interleaving.step Interleaving.init s ∧
      (receive stalePing s.registry).invoked = some (⟨1⟩, 0) ∧
      (receive (.replicate _ 0) s.registry).invoked = none := by
  intro code receive
  refine ⟨⟨(handlerRegister Interleaving.init.registry (some router) 0 ⟨1⟩ 0).2,
    Interleaving.init.phase⟩, ⟨[.register (some router) 0 ⟨1⟩ 0], rfl⟩, ?_, ?_⟩
  · decide +kernel
  · decide +kernel

end StudyC.Mgmt
