import StudyC.Mgmt.Registry

/-!
# What each registry call does

One lemma per function of `event_handler.c`. Later modules cite these and never unfold the calls.
-/

open CString KeyedList

namespace StudyC.Mgmt

variable {H X : Type}

abbrev EventHandlerRegistry.place (r : EventHandlerRegistry H X) (k : Key) : Option Nat :=
  position EventHandlerEntry.key r.entries.live k

theorem findEntry_val (r : EventHandlerRegistry H X) (cmdType : UInt8) (name : List UInt8) :
    (r.findEntry cmdType name).map Fin.val = r.place (cmdType, cstr name) := by
  have hp : r.place (cmdType, cstr name) = r.entries.live.findIdx? fun e =>
      e.cmdType = cmdType ∧ cstr e.moduleName.toList = cstr name := by
    simp only [EventHandlerRegistry.place, position, EventHandlerEntry.key, Prod.mk.injEq]
  rw [hp, EventHandlerRegistry.findEntry]
  cases h : r.entries.live.findIdx? fun e =>
      e.cmdType = cmdType ∧ cstr e.moduleName.toList = cstr name with
  | none => rfl
  | some i =>
    have hlt : i < maxEventHandlers := by
      rw [← hp] at h
      have := position_lt _ h
      have := r.entries.count_le
      rw [SlotTable.live_length] at *
      omega
    simp [hlt]

theorem findEntry_some {r : EventHandlerRegistry H X} {cmdType : UInt8} {name : List UInt8}
    {i : Slot} (h : r.findEntry cmdType name = some i) :
    r.place (cmdType, cstr name) = some i.val := by
  rw [← findEntry_val, h]; rfl

theorem findEntry_none {r : EventHandlerRegistry H X} {cmdType : UInt8} {name : List UInt8}
    (h : r.findEntry cmdType name = none) : r.place (cmdType, cstr name) = none := by
  rw [← findEntry_val, h]; rfl

theorem mem_keys_of_place {r : EventHandlerRegistry H X} {k : Key} {i : Nat}
    (h : r.place k = some i) : k ∈ r.entries.live.map EventHandlerEntry.key := by
  obtain ⟨e, he, hk, -⟩ := position_eq_some EventHandlerEntry.key EventHandlerEntry.key h
  exact List.mem_map.mpr ⟨e, List.mem_of_getElem? he, hk⟩

theorem findEntry_slot {r : EventHandlerRegistry H X} {cmdType : UInt8} {name : List UInt8}
    {i : Slot} (h : r.findEntry cmdType name = some i) :
    i.val < r.entries.count ∧ r.entries.slots[i.val]?.map EventHandlerEntry.key =
      some (cmdType, cstr name) := by
  have hlt := position_lt _ (findEntry_some h)
  rw [SlotTable.live_length] at hlt
  obtain ⟨e, he, hkey, -⟩ :=
    position_eq_some EventHandlerEntry.key EventHandlerEntry.key (findEntry_some h)
  rw [SlotTable.live_getElem?, if_pos hlt] at he
  refine ⟨hlt, ?_⟩
  rw [he, Option.map_some, hkey]

/-! ## Stored names -/

theorem cstr_copyName (old : Vector UInt8 mgmtModuleNameSize) (m : CStr) :
    cstr (copyName old m).toList = m.bytes.take (mgmtModuleNameSize - 1) := by
  have hset : (copyName old m).toList =
      (strncpy old m.bytes (mgmtModuleNameSize - 1)).toList.set (mgmtModuleNameSize - 1) 0 := by
    rw [copyName, Vector.toList_set]
  have htake : ∀ b ∈ m.bytes.take (mgmtModuleNameSize - 1), b ≠ 0 :=
    fun b hb => m.nonul b (List.mem_of_mem_take hb)
  have hlen : (m.bytes.take (mgmtModuleNameSize - 1) ++
      List.replicate (mgmtModuleNameSize - 1 - m.bytes.length) 0).length =
      mgmtModuleNameSize - 1 := by
    simp; omega
  rw [hset, strncpy_toList _ _ (by decide), List.set_append_right _ _ (by omega)]
  rw [List.drop_eq_getElem_cons (by rw [Vector.length_toList]; decide), hlen, Nat.sub_self,
    List.set_cons_zero]
  -- The NUL that ends the name is either padding or the forced last byte.
  rcases h : mgmtModuleNameSize - 1 - m.bytes.length with _ | k
  · simpa using cstr_append_nul htake _
  · rw [List.replicate_succ, List.append_assoc, List.cons_append]
    exact cstr_append_nul htake _

theorem fill_key (old : EventHandlerEntry H X) (m : CStr) (cmdType : UInt8) (handler : H)
    (context : X) :
    (old.fill m cmdType handler context).key =
      (cmdType, m.bytes.take (mgmtModuleNameSize - 1)) := by
  simp only [EventHandlerEntry.key, EventHandlerEntry.fill, cstr_copyName]

@[simp] theorem rebind_key (e : EventHandlerEntry H X) (handler : H) (context : X) :
    (e.rebind handler context).key = e.key := rfl

theorem CStr.cstr_bytes (m : CStr) : cstr m.bytes = m.bytes := cstr_of_nonul m.nonul

/-! ## Registration -/

def Registrable [Zero H] (cmdType : UInt8) (handler : H) : Prop :=
  handler ≠ 0 ∧ cmdType.toNat < mgmtCmdMax

instance [Zero H] [DecidableEq H] (cmdType : UInt8) (handler : H) :
    Decidable (Registrable cmdType handler) := instDecidableAnd

section
variable [Zero H] [DecidableEq H] (r : EventHandlerRegistry H X) (m : CStr) (cmdType : UInt8)
  (handler : H) (context : X)

theorem handlerRegister_refused (h : ¬ Registrable cmdType handler) :
    handlerRegister r (some m) cmdType handler context = (-1, r) := by
  rw [Registrable] at h
  rw [handlerRegister]
  simp only
  rw [if_pos (by by_contra hc; rw [not_or] at hc; exact h ⟨hc.1, by omega⟩)]

theorem handlerRegister_update {i : Slot} (h : Registrable cmdType handler)
    (hi : r.findEntry cmdType m.bytes = some i) :
    handlerRegister r (some m) cmdType handler context =
      (0, { r with entries := r.entries.modify i (.rebind handler context) }) := by
  rw [handlerRegister]
  simp only [hi]
  rw [if_neg (by rw [not_or]; exact ⟨h.1, by have := h.2; omega⟩)]

theorem handlerRegister_full (h : Registrable cmdType handler)
    (hi : r.findEntry cmdType m.bytes = none) (hfull : ¬ r.entries.count < maxEventHandlers) :
    handlerRegister r (some m) cmdType handler context = (-1, r) := by
  rw [handlerRegister]
  simp only [hi]
  rw [if_neg (by rw [not_or]; exact ⟨h.1, by have := h.2; omega⟩), dif_neg hfull]

theorem handlerRegister_append (h : Registrable cmdType handler)
    (hi : r.findEntry cmdType m.bytes = none) (hroom : r.entries.count < maxEventHandlers) :
    handlerRegister r (some m) cmdType handler context =
      (0, { r with entries :=
        r.entries.push (r.entries.slots[r.entries.count].fill m cmdType handler context) }) := by
  rw [handlerRegister]
  simp only [hi]
  rw [if_neg (by rw [not_or]; exact ⟨h.1, by have := h.2; omega⟩), dif_pos hroom]

theorem handlerRegister_cases :
    (handlerRegister r (some m) cmdType handler context = (-1, r) ∧
      (Registrable cmdType handler → r.place (cmdType, m.bytes) = none ∧
        ¬ r.entries.count < maxEventHandlers)) ∨
    (Registrable cmdType handler ∧ ∃ i : Slot, r.place (cmdType, m.bytes) = some i.val ∧
      handlerRegister r (some m) cmdType handler context =
        (0, { r with entries := r.entries.modify i (.rebind handler context) })) ∨
    (Registrable cmdType handler ∧ r.place (cmdType, m.bytes) = none ∧
      r.entries.count < maxEventHandlers ∧ ∃ old : EventHandlerEntry H X,
      handlerRegister r (some m) cmdType handler context =
        (0, { r with entries := r.entries.push (old.fill m cmdType handler context) })) := by
  by_cases h : Registrable cmdType handler
  · cases hi : r.findEntry cmdType m.bytes with
    | some i =>
      have hp := findEntry_some hi
      rw [CStr.cstr_bytes] at hp
      exact Or.inr (Or.inl ⟨h, i, hp, handlerRegister_update r m cmdType handler context h hi⟩)
    | none =>
      have hp := findEntry_none hi
      rw [CStr.cstr_bytes] at hp
      by_cases hroom : r.entries.count < maxEventHandlers
      · exact Or.inr (Or.inr ⟨h, hp, hroom, _,
          handlerRegister_append r m cmdType handler context h hi hroom⟩)
      · exact Or.inl ⟨handlerRegister_full r m cmdType handler context h hi hroom,
          fun _ => ⟨hp, hroom⟩⟩
  · exact Or.inl ⟨handlerRegister_refused r m cmdType handler context h, fun hr => absurd hr h⟩

end

/-! ## Unregistration -/

theorem handlerUnregister_cases (r : EventHandlerRegistry H X) (m : CStr) (cmdType : UInt8) :
    (r.place (cmdType, m.bytes) = none ∧ handlerUnregister r (some m) cmdType = (-1, r)) ∨
    ∃ i : Slot, r.findEntry cmdType m.bytes = some i ∧ r.place (cmdType, m.bytes) = some i.val ∧
      handlerUnregister r (some m) cmdType = (0, { r with entries := r.entries.remove i }) := by
  have hv := findEntry_val r cmdType m.bytes
  rw [CStr.cstr_bytes] at hv
  cases hi : r.findEntry cmdType m.bytes with
  | none =>
    rw [hi] at hv
    exact Or.inl ⟨hv.symm, by simp [handlerUnregister, hi]⟩
  | some i =>
    rw [hi] at hv
    exact Or.inr ⟨i, rfl, hv.symm, by simp [handlerUnregister, hi]⟩

/-! ## Stored names after each call -/

/-- A stored name has at most 63 bytes, whatever was registered. -/
def EventHandlerRegistry.ShortNames (r : EventHandlerRegistry H X) : Prop :=
  ∀ k ∈ r.entries.live.map EventHandlerEntry.key, k.2.length < mgmtModuleNameSize

theorem register_shortNames [Zero H] [DecidableEq H] {r : EventHandlerRegistry H X}
    (hr : r.ShortNames) (m : CStr) (c : UInt8) (h : H) (x : X) :
    (handlerRegister r (some m) c h x).2.ShortNames := by
  unfold EventHandlerRegistry.ShortNames
  rcases handlerRegister_cases r m c h x with ⟨he, -⟩ | ⟨-, i, -, he⟩ | ⟨-, -, hroom, old, he⟩
  · rw [he]; exact hr
  · rw [he, SlotTable.live_modify, keys_modify _ fun a => rebind_key a h x]
    exact hr
  · rw [he, SlotTable.live_push _ _ hroom, List.map_append]
    intro k hk
    rcases List.mem_append.mp hk with hk | hk
    · exact hr k hk
    · obtain rfl := List.mem_singleton.mp hk
      rw [fill_key, List.length_take]
      exact lt_of_le_of_lt (Nat.min_le_left _ _) (by decide)

theorem unregister_shortNames {r : EventHandlerRegistry H X} (hr : r.ShortNames) (m : CStr)
    (c : UInt8) : (handlerUnregister r (some m) c).2.ShortNames := by
  rcases handlerUnregister_cases r m c with ⟨-, he⟩ | ⟨i, hi, -, he⟩
  · rw [he]; exact hr
  · unfold EventHandlerRegistry.ShortNames
    rw [he, SlotTable.live_remove _ _ (findEntry_slot hi).1]
    intro k hk
    exact hr k (((List.eraseIdx_sublist _ _).map _).subset hk)

/-- The key and the target of an entry, without its statistics. -/
def EventHandlerEntry.binding (e : EventHandlerEntry H X) : Key × (H × X) := (e.key, e.target)

theorem keys_of_bindings {r r' : EventHandlerRegistry H X}
    (h : r'.entries.live.map EventHandlerEntry.binding =
      r.entries.live.map EventHandlerEntry.binding) :
    r'.entries.live.map EventHandlerEntry.key = r.entries.live.map EventHandlerEntry.key := by
  have hkeys := congrArg (List.map Prod.fst) h
  rw [List.map_map, List.map_map] at hkeys
  exact hkeys

theorem shortNames_of_bindings {r r' : EventHandlerRegistry H X} (hr : r.ShortNames)
    (h : r'.entries.live.map EventHandlerEntry.binding =
      r.entries.live.map EventHandlerEntry.binding) :
    r'.ShortNames := by
  unfold EventHandlerRegistry.ShortNames
  rw [keys_of_bindings h]
  exact hr

theorem statsReset_bindings (r : EventHandlerRegistry H X) :
    (handlerStatsReset r).2.entries.live.map EventHandlerEntry.binding =
      r.entries.live.map EventHandlerEntry.binding := by
  unfold handlerStatsReset
  rw [SlotTable.live_mapLive, List.map_map]
  rfl

/-! ## Dispatch -/

def MgmtCommandRequest.key (req : MgmtCommandRequest) : Key :=
  (req.cmdType, cstr req.targetModule.toList)

theorem dispatchLookup_cases (r : EventHandlerRegistry H X) (req : MgmtCommandRequest)
    (resp : MgmtCommandResponse) :
    (mgmtRequestValidate req = false ∧ dispatchLookup r req resp =
      .rejected (-3) { resp with resultCode := MgmtResultCode.invalidCmd.code }) ∨
    (mgmtRequestValidate req = true ∧ r.place req.key = none ∧ dispatchLookup r req resp =
      .rejected (-1) { resp with resultCode := MgmtResultCode.moduleNotFound.code }) ∨
    (mgmtRequestValidate req = true ∧ ∃ i : Slot,
      r.findEntry req.cmdType req.targetModule.toList = some i ∧ r.place req.key = some i.val ∧
      dispatchLookup r req resp = .matched i (prepareResponse req resp)) := by
  have hv := findEntry_val r req.cmdType req.targetModule.toList
  unfold dispatchLookup MgmtCommandRequest.key
  cases hval : mgmtRequestValidate req with
  | false => simp
  | true =>
    cases hi : r.findEntry req.cmdType req.targetModule.toList with
    | none =>
      rw [hi] at hv
      exact Or.inr (Or.inl ⟨rfl, hv.symm, by simp⟩)
    | some i =>
      rw [hi] at hv
      exact Or.inr (Or.inr ⟨rfl, i, rfl, hv.symm, by simp⟩)

theorem dispatchAccount_bindings (r : EventHandlerRegistry H X) (slot : Slot) (result : Int)
    (resp : MgmtCommandResponse) :
    (dispatchAccount r slot result resp).1.entries.live.map EventHandlerEntry.binding =
      r.entries.live.map EventHandlerEntry.binding := by
  simp only [dispatchAccount, SlotTable.live_modify]
  exact keys_modify _ fun _ => rfl

theorem dispatchAccount_resp (r : EventHandlerRegistry H X) (slot : Slot) (result : Int)
    (resp : MgmtCommandResponse) :
    ∃ code, (dispatchAccount r slot result resp).2 = { resp with resultCode := code } := by
  unfold dispatchAccount
  dsimp only
  split
  · exact ⟨_, rfl⟩
  · split
    · exact ⟨_, rfl⟩
    · exact ⟨resp.resultCode, rfl⟩

@[simp] theorem dispatchAccount_payload (r : EventHandlerRegistry H X) (slot : Slot) (result : Int)
    (resp : MgmtCommandResponse) :
    (dispatchAccount r slot result resp).2.payload = resp.payload := by
  obtain ⟨code, he⟩ := dispatchAccount_resp r slot result resp
  rw [he]

theorem handlerDispatch_cases (code : HandlerCode H X) (clock : Clock)
    (r : EventHandlerRegistry H X) (req : MgmtCommandRequest) (resp : MgmtCommandResponse) :
    (mgmtRequestValidate req = false ∧ handlerDispatch code clock r req resp =
      ⟨-3, r, { resp with resultCode := MgmtResultCode.invalidCmd.code }, none⟩) ∨
    (mgmtRequestValidate req = true ∧ r.place req.key = none ∧
      handlerDispatch code clock r req resp =
      ⟨-1, r, { resp with resultCode := MgmtResultCode.moduleNotFound.code }, none⟩) ∨
    (mgmtRequestValidate req = true ∧ ∃ (slot : Slot) (e : EventHandlerEntry H X),
      r.place req.key = some slot.val ∧ r.entries.live[slot.val]? = some e ∧
      handlerDispatch code clock r req resp =
        let (result, resp') := code e.handler clock req (prepareResponse req resp) e.context
        ⟨result, (dispatchAccount r slot result resp').1, (dispatchAccount r slot result resp').2,
          some e.target⟩) := by
  rcases dispatchLookup_cases r req resp with ⟨hv, he⟩ | ⟨hv, hp, he⟩ | ⟨hv, i, hi, hp, he⟩
  · exact Or.inl ⟨hv, by simp only [handlerDispatch, he]⟩
  · exact Or.inr (Or.inl ⟨hv, hp, by simp only [handlerDispatch, he]⟩)
  · have hlive : r.entries.live[i.val]? = some r.entries.slots[i] := by
      rw [SlotTable.live_getElem?, if_pos (findEntry_slot hi).1, Vector.getElem?_eq_getElem i.isLt]
      rfl
    refine Or.inr (Or.inr ⟨hv, i, _, hp, hlive, ?_⟩)
    simp only [handlerDispatch, he]
    rfl

end StudyC.Mgmt
