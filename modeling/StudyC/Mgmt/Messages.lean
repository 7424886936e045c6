import StudyC.Mgmt.Protocol

/-!
# What the initialisers build

`mgmt_request_init` and `mgmt_response_init` cut a name or a payload that does not fit, and leave
zeros behind one that does. A request carries the length of its payload, a response does not.
-/

open CString

namespace StudyC.Mgmt

/-- The bytes that a pointer and a length describe, none for `NULL`. -/
def pointed (payload : Option (Nat → UInt8)) (len : UInt64) : List UInt8 :=
  match payload with
  | none => []
  | some mem => (List.range len.toNat).map mem

/-- The name that a pointer leads to, empty for `NULL`. -/
def nameBytes (module : Option CStr) : List UInt8 := (module.map CStr.bytes).getD []

theorem nameBytes_nonul (module : Option CStr) : ∀ b ∈ nameBytes module, b ≠ 0 := by
  cases module with
  | none => simp [nameBytes]
  | some m => exact m.nonul

theorem nameBytes_ne_nil (module : Option CStr) :
    nameBytes module ≠ [] ↔ ∃ m, module = some m ∧ m.bytes ≠ [] := by
  cases module with
  | none => simp [nameBytes]
  | some m => simp [nameBytes]

/-! ## Requests -/

section
variable (clock : Clock) (cmdType : UInt8) (module : Option CStr) (payload : List UInt8)

theorem requestInit_target :
    (mgmtRequestInit clock cmdType module payload).targetModule.toList =
      (nameBytes module).take 63 ++ List.replicate (64 - min 63 (nameBytes module).length) 0 := by
  cases module with
  | none => rfl
  | some m => exact strncpy_zeroed m.bytes (by decide)

theorem requestInit_name (hlen : (nameBytes module).length ≤ 63) :
    cstr (mgmtRequestInit clock cmdType module payload).targetModule.toList = nameBytes module := by
  have hone : 64 - min 63 (nameBytes module).length = (63 - (nameBytes module).length) + 1 := by
    omega
  rw [requestInit_target, List.take_of_length_le hlen, hone, List.replicate_succ]
  exact cstr_append_nul (nameBytes_nonul module) _

theorem requestInit_named :
    (mgmtRequestInit clock cmdType module payload).targetModule[0] ≠ 0 ↔ nameBytes module ≠ [] := by
  have hhead :
      ((nameBytes module).take 63 ++ List.replicate (64 - min 63 (nameBytes module).length) 0)[0]? =
      some (mgmtRequestInit clock cmdType module payload).targetModule[0] := by
    rw [← requestInit_target clock cmdType module payload, Vector.getElem?_toList,
      Vector.getElem?_eq_getElem]
  have hnonul := nameBytes_nonul module
  cases hname : nameBytes module with
  | nil =>
    rw [hname] at hhead
    simpa using (Option.some.inj hhead).symm
  | cons b l =>
    rw [hname] at hhead hnonul
    rw [← Option.some.inj hhead]
    simpa using hnonul b

theorem requestInit_payloadLen :
    (mgmtRequestInit clock cmdType module payload).payloadLen.toNat = min payload.length 512 := by
  have hlen : (payload.take 512).length = min payload.length 512 := by
    rw [List.length_take, Nat.min_comm]
  simp only [mgmtRequestInit, mgmtPayloadRequestSize, hlen, UInt16.toNat_ofNat']
  omega

theorem requestInit_payload :
    (mgmtRequestInit clock cmdType module payload).payload.toList =
      payload.take 512 ++ List.replicate (512 - min payload.length 512) 0 := by
  have hlen : (payload.take 512).length = min payload.length 512 := by
    rw [List.length_take, Nat.min_comm]
  rw [← hlen]
  exact memcpy_zeroed (List.length_take_le _ _)

theorem requestInit_payload_get {i : Nat} (hi : i < mgmtPayloadRequestSize) :
    (mgmtRequestInit clock cmdType module payload).payload[i] =
      if i < min payload.length 512 then payload.getD i 0 else 0 := by
  have hget : (mgmtRequestInit clock cmdType module payload).payload[i] =
      (payload.take 512).getD i 0 := by
    simp only [mgmtRequestInit, memcpy_get, Vector.getElem_replicate]
    rfl
  replace hi : i < 512 := hi
  rw [hget, List.getD_eq_getElem?_getD, List.getD_eq_getElem?_getD, List.getElem?_take, if_pos hi]
  split
  · rfl
  · rw [List.getElem?_eq_none (by omega)]
    rfl

theorem requestInit_valid :
    mgmtRequestValidate (mgmtRequestInit clock cmdType module payload) = true ↔
      cmdType.toNat < mgmtCmdMax ∧ nameBytes module ≠ [] := by
  rw [validate_iff, requestInit_named, requestInit_payloadLen]
  have hle : min payload.length 512 ≤ mgmtPayloadRequestSize := Nat.min_le_right _ _
  simp only [hle, and_true]
  rfl

theorem requestInit_congr {clock' : Clock} {module' : Option CStr} {payload' : List UInt8}
    (hname : (nameBytes module').take 63 = (nameBytes module).take 63)
    (hpayload : payload'.take 512 = payload.take 512) :
    { mgmtRequestInit clock' cmdType module' payload' with timestamp := clock.realtime } =
      mgmtRequestInit clock cmdType module payload := by
  have hlen : min 63 (nameBytes module').length = min 63 (nameBytes module).length := by
    simpa using congrArg List.length hname
  have htarget : (mgmtRequestInit clock' cmdType module' payload').targetModule =
      (mgmtRequestInit clock cmdType module payload).targetModule := by
    apply Vector.toList_inj.mp
    rw [requestInit_target, requestInit_target, hname, hlen]
  unfold mgmtRequestInit at htarget ⊢
  simp only [mgmtPayloadRequestSize, hpayload] at htarget ⊢
  rw [htarget]

end

theorem pointed_length (payload : Option (Nat → UInt8)) (len : UInt64) :
    (pointed payload len).length = if payload.isSome then len.toNat else 0 := by
  cases payload with
  | none => rfl
  | some mem => simp [pointed]

/-- The request is valid exactly for a known command and a name, its fields are the prefixes that
fit, and nothing else of the input is in it. -/
theorem request_init_prefixes (clock : Clock) (cmdType : UInt8) (module : Option CStr)
    (payload : Option (Nat → UInt8)) (len : UInt64) :
    let req := mgmtRequestInit clock cmdType module (pointed payload len)
    (mgmtRequestValidate req = true ↔ cmdType.toNat < 16 ∧ ∃ m, module = some m ∧ m.bytes ≠ []) ∧
      req.cmdType = cmdType ∧
      req.targetModule.toList =
        (nameBytes module).take 63 ++ List.replicate (64 - min 63 (nameBytes module).length) 0 ∧
      req.payloadLen.toNat = (if payload.isSome then min len.toNat 512 else 0) ∧
      (∀ i (_ : i < mgmtPayloadRequestSize), req.payload[i] =
        if i < req.payloadLen.toNat then (pointed payload len).getD i 0 else 0) ∧
      ((nameBytes module).length ≤ 63 → cstr req.targetModule.toList = nameBytes module) ∧
      ((pointed payload len).length ≤ 512 → req.payload.toList.take req.payloadLen.toNat =
        pointed payload len) ∧
      ∀ (clock' : Clock) (module' : Option CStr) (payload' : Option (Nat → UInt8)) (len' : UInt64),
        (nameBytes module').take 63 = (nameBytes module).take 63 →
        (pointed payload' len').take 512 = (pointed payload len).take 512 →
        { mgmtRequestInit clock' cmdType module'
          (pointed payload' len') with timestamp := req.timestamp } = req := by
  intro req
  have hlen : req.payloadLen.toNat = min (pointed payload len).length 512 :=
    requestInit_payloadLen ..
  refine ⟨?_, rfl, requestInit_target .., ?_, ?_, requestInit_name _ _ _ _, ?_, ?_⟩
  · rw [← nameBytes_ne_nil]
    exact requestInit_valid ..
  · rw [hlen, pointed_length]
    cases payload with
    | none => rfl
    | some mem => rfl
  · intro i hi
    rw [hlen]
    exact requestInit_payload_get _ _ _ _ hi
  · intro hle
    rw [hlen, Nat.min_eq_left hle, requestInit_payload, List.take_of_length_le hle, List.take_left]
  · intro clock' module' payload' len' hname hpayload
    exact requestInit_congr _ _ _ _ hname hpayload

/-! ## Responses -/

theorem responseInit_payload (clock : Clock) (reqId : UInt32) (result : UInt8)
    (module : Option CStr) (payload : List UInt8) :
    (mgmtResponseInit clock reqId result module payload).payload.toList =
      payload.take 2048 ++ List.replicate (2048 - min payload.length 2048) 0 := by
  have hlen : (payload.take 2048).length = min payload.length 2048 := by
    rw [List.length_take, Nat.min_comm]
  have hfield : (mgmtResponseInit clock reqId result module payload).payload =
      memcpy (.replicate mgmtPayloadResponseSize 0) (payload.take 2048) := by
    cases module with
    | none => rfl
    | some m => rfl
  rw [hfield, ← hlen]
  exact memcpy_zeroed (List.length_take_le _ _)

theorem responseInit_ends (clock : Clock) (reqId : UInt32) (result : UInt8) (module : Option CStr)
    (payload : List UInt8) :
    0 ∈ (mgmtResponseInit clock reqId result module payload).payload.toList ↔
      payload.length < 2048 ∨ 0 ∈ payload.take 2048 := by
  -- only a payload that fills the field can leave it without a NUL
  rw [responseInit_payload, List.mem_append, List.mem_replicate]
  constructor
  · rintro (hmem | ⟨hroom, -⟩)
    · exact Or.inr hmem
    · exact Or.inl (by omega)
  · rintro (hshort | hmem)
    · exact Or.inr ⟨by omega, rfl⟩
    · exact Or.inl hmem

end StudyC.Mgmt
