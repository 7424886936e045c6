import StudyC.Lib.Runs
import StudyC.Mgmt.RegistryCalls

/-!
# The registry as a map

What the registry is for: a partial map from command type and module name to handler and context,
with room for 64 keys. Sequential runs of the registry calls refine it as long as the names fit
the 63 bytes that an entry stores.
-/

open CString KeyedList Runs

namespace StudyC.Mgmt

/-! ## The abstract registry -/

abbrev HandlerMap (H X : Type) := Key → Option (H × X)

section
variable {H X : Type}

open Classical in
noncomputable def HandlerMap.register (M : HandlerMap H X) (k : Key) (target : H × X) :
    Int × HandlerMap H X :=
  if M k ≠ none ∨ (dom M).ncard < maxEventHandlers then (0, Function.update M k (some target))
  else (-1, M)

open Classical in
noncomputable def HandlerMap.unregister (M : HandlerMap H X) (k : Key) : Int × HandlerMap H X :=
  if M k ≠ none then (0, Function.update M k none) else (-1, M)

/-- The abstract registry that the live entries stand for. -/
def EventHandlerRegistry.toMap (r : EventHandlerRegistry H X) : HandlerMap H X :=
  KeyedList.toMap EventHandlerEntry.key EventHandlerEntry.target r.entries.live

def EventHandlerRegistry.UniqueKeys (r : EventHandlerRegistry H X) : Prop :=
  (r.entries.live.map EventHandlerEntry.key).Nodup

theorem toMap_none_iff (r : EventHandlerRegistry H X) (k : Key) :
    r.toMap k = none ↔ r.place k = none := by
  rw [EventHandlerRegistry.toMap, toMap_eq_none, EventHandlerRegistry.place, position_eq_none]

theorem ncard_toMap {r : EventHandlerRegistry H X} (h : r.UniqueKeys) :
    (dom r.toMap).ncard = r.entries.count := by
  rw [EventHandlerRegistry.toMap, dom_ncard _ _ h, SlotTable.live_length]

end

/-! ## Registration and removal -/

/-- A name that an entry stores whole. -/
structure ModuleName where
  name : CStr
  nonempty : 1 ≤ name.bytes.length
  fits : name.bytes.length < mgmtModuleNameSize

section
variable {H X : Type} [Zero H] [DecidableEq H] {r : EventHandlerRegistry H X} {m : CStr} {c : UInt8}
  {h : H} {x : X}

theorem register_live (hm : m.bytes.length < mgmtModuleNameSize) (hr : Registrable c h) :
    (∃ i, r.place (c, m.bytes) = some i ∧
      (handlerRegister r (some m) c h x).1 = 0 ∧
      (handlerRegister r (some m) c h x).2.entries.live = r.entries.live.modify i (.rebind h x)) ∨
    (r.place (c, m.bytes) = none ∧ r.entries.count < maxEventHandlers ∧
      (handlerRegister r (some m) c h x).1 = 0 ∧
      ∃ e : EventHandlerEntry H X, e.key = (c, m.bytes) ∧ e.target = (h, x) ∧
        e.invocationCount = 0 ∧
        e.totalLatencyUs = 0 ∧
        (handlerRegister r (some m) c h x).2.entries.live = r.entries.live ++ [e]) ∨
    (r.place (c, m.bytes) = none ∧ ¬ r.entries.count < maxEventHandlers ∧
      handlerRegister r (some m) c h x = (-1, r)) := by
  rcases handlerRegister_cases r m c h x with ⟨he, hfull⟩ | ⟨-, i, hi, he⟩ | ⟨-, hp, hroom, old, he⟩
  · exact Or.inr (Or.inr ⟨(hfull hr).1, (hfull hr).2, he⟩)
  · refine Or.inl ⟨i, hi, by rw [he], ?_⟩
    rw [he]
    exact SlotTable.live_modify _ _ _
  · have hkey : (old.fill m c h x).key = (c, m.bytes) := by
      rw [fill_key, List.take_of_length_le (by omega)]
    refine Or.inr (Or.inl ⟨hp, hroom, by rw [he], old.fill m c h x, hkey, rfl, rfl, rfl, ?_⟩)
    rw [he]
    exact SlotTable.live_push _ _ hroom

theorem register_refines (hu : r.UniqueKeys) (hm : m.bytes.length < mgmtModuleNameSize)
    (hr : Registrable c h) :
    ((handlerRegister r (some m) c h x).1, (handlerRegister r (some m) c h x).2.toMap) =
      r.toMap.register (c, m.bytes) (h, x) := by
  have hnone := toMap_none_iff r (c, m.bytes)
  rw [HandlerMap.register, ncard_toMap hu]
  rcases register_live (r := r) (x := x) hm hr with
    ⟨i, hi, hret, hl⟩ | ⟨hp, hroom, hret, e, hk, ht, -, -, hl⟩ | ⟨hp, hfull, he⟩
  · have hsome : r.toMap (c, m.bytes) ≠ none := by rw [Ne, hnone, hi]; simp
    rw [if_pos (Or.inl hsome), hret, EventHandlerRegistry.toMap, hl]
    rw [toMap_modify _ _ (v := (h, x)) hi (fun a => rebind_key a h x) (fun _ => rfl)]
    rfl
  · rw [if_pos (Or.inr hroom), hret, EventHandlerRegistry.toMap, hl]
    rw [toMap_append _ _ (by rw [hk]; exact (position_eq_none _).mp hp), hk, ht]
    rfl
  · rw [if_neg (by rw [not_or, not_not]; exact ⟨hnone.mpr hp, hfull⟩), he]

theorem register_failed (hret : (handlerRegister r (some m) c h x).1 = -1) :
    (handlerRegister r (some m) c h x).2 = r := by
  rcases handlerRegister_cases r m c h x with ⟨he, -⟩ | ⟨-, i, -, he⟩ | ⟨-, -, -, old, he⟩
  · rw [he]
  · rw [he] at hret; simp at hret
  · rw [he] at hret; simp at hret

theorem register_uniqueKeys (hu : r.UniqueKeys) (hm : m.bytes.length < mgmtModuleNameSize) :
    (handlerRegister r (some m) c h x).2.UniqueKeys := by
  by_cases hr : Registrable c h
  · unfold EventHandlerRegistry.UniqueKeys
    rcases register_live (r := r) (x := x) hm hr with
        ⟨i, hi, -, hl⟩ | ⟨hp, -, -, e, hk, -, -, -, hl⟩ | ⟨-, -, he⟩
    · rw [hl, keys_modify _ fun a => rebind_key a h x]
      exact hu
    · rw [hl, List.map_append]
      refine List.Nodup.append hu (List.nodup_singleton _) ?_
      rw [List.map_singleton, List.disjoint_singleton, hk]
      exact (position_eq_none _).mp hp
    · rw [he]; exact hu
  · rw [handlerRegister_refused r m c h x hr]
    exact hu

end

section
variable {H X : Type} {r : EventHandlerRegistry H X}

theorem unregister_live (hu : r.UniqueKeys) (m : CStr) (c : UInt8) :
    (r.place (c, m.bytes) = none ∧ handlerUnregister r (some m) c = (-1, r)) ∨
    ∃ i, r.place (c, m.bytes) = some i ∧ (handlerUnregister r (some m) c).1 = 0 ∧
      (handlerUnregister r (some m) c).2.entries.live = r.entries.live.eraseIdx i ∧
      (handlerUnregister r (some m) c).2.entries.live =
        r.entries.live.filter fun e => e.key ≠ (c, m.bytes) := by
  rcases handlerUnregister_cases r m c with hp | ⟨i, hi, hp, he⟩
  · exact Or.inl hp
  · have hl : (handlerUnregister r (some m) c).2.entries.live = r.entries.live.eraseIdx i := by
      rw [he]
      exact SlotTable.live_remove _ _ (findEntry_slot hi).1
    refine Or.inr ⟨i, hp, by rw [he], hl, ?_⟩
    rw [hl, eraseIdx_eq_filter _ hu hp]

theorem unregister_refines (hu : r.UniqueKeys) (m : CStr) (c : UInt8) :
    ((handlerUnregister r (some m) c).1, (handlerUnregister r (some m) c).2.toMap) =
      r.toMap.unregister (c, m.bytes) := by
  have hnone := toMap_none_iff r (c, m.bytes)
  rw [HandlerMap.unregister]
  rcases unregister_live hu m c with ⟨hp, he⟩ | ⟨i, hi, hret, hl, -⟩
  · rw [if_neg (by rw [not_not]; exact hnone.mpr hp), he]
  · rw [if_pos (by rw [Ne, hnone, hi]; simp), hret, EventHandlerRegistry.toMap, hl]
    rw [toMap_eraseIdx _ _ hu hi]
    rfl

theorem unregister_failed {m : CStr} {c : UInt8}
    (hret : (handlerUnregister r (some m) c).1 = -1) : (handlerUnregister r (some m) c).2 = r := by
  rcases handlerUnregister_cases r m c with ⟨-, he⟩ | ⟨i, -, -, he⟩
  · rw [he]
  · rw [he] at hret; simp at hret

theorem unregister_uniqueKeys (hu : r.UniqueKeys) (m : CStr) (c : UInt8) :
    (handlerUnregister r (some m) c).2.UniqueKeys := by
  rcases unregister_live hu m c with ⟨-, he⟩ | ⟨i, -, -, hl, -⟩
  · rw [he]; exact hu
  · unfold EventHandlerRegistry.UniqueKeys
    rw [hl]
    exact hu.sublist ((List.eraseIdx_sublist _ _).map _)

end

/-! ## The other calls -/

section
variable {H X : Type}

theorem toMap_of_bindings {r r' : EventHandlerRegistry H X}
    (h : r'.entries.live.map EventHandlerEntry.binding =
      r.entries.live.map EventHandlerEntry.binding) :
    r'.toMap = r.toMap :=
  toMap_congr _ _ h

theorem uniqueKeys_of_bindings {r r' : EventHandlerRegistry H X} (hu : r.UniqueKeys)
    (h : r'.entries.live.map EventHandlerEntry.binding =
      r.entries.live.map EventHandlerEntry.binding) :
    r'.UniqueKeys := by
  unfold EventHandlerRegistry.UniqueKeys
  rw [keys_of_bindings h]
  exact hu

theorem init_bindings {r : EventHandlerRegistry H X}
    (hempty : r.initialized = false → r.entries.live = []) (ok : Bool) :
    (handlerRegistryInit ok r).2.entries.live.map EventHandlerEntry.binding =
      r.entries.live.map EventHandlerEntry.binding := by
  unfold handlerRegistryInit
  split
  · rfl
  · rename_i hi
    split
    · rfl
    · rw [hempty (by simpa using hi), SlotTable.live_clear]

theorem init_failed {r : EventHandlerRegistry H X} {ok : Bool}
    (h : (handlerRegistryInit ok r).1 = -1) : (handlerRegistryInit ok r).2 = r := by
  revert h
  unfold handlerRegistryInit
  split
  · exact fun _ => rfl
  · split
    · exact fun _ => rfl
    · intro h
      simp at h

theorem dispatch_bindings (code : HandlerCode H X) (clock : Clock) (r : EventHandlerRegistry H X)
    (req : MgmtCommandRequest) (resp : MgmtCommandResponse) :
    (handlerDispatch code clock r req resp).registry.entries.live.map EventHandlerEntry.binding =
      r.entries.live.map EventHandlerEntry.binding := by
  rcases handlerDispatch_cases code clock r req resp with
      ⟨-, he⟩ | ⟨-, -, he⟩ | ⟨-, slot, e, -, -, he⟩
  · rw [he]
  · rw [he]
  · rw [he, dispatchAccount_bindings]

theorem dispatch_target (code : HandlerCode H X) (clock : Clock) (r : EventHandlerRegistry H X)
    {req : MgmtCommandRequest} (resp : MgmtCommandResponse) (hv : mgmtRequestValidate req = true) :
    (handlerDispatch code clock r req resp).invoked = r.toMap req.key := by
  rcases handlerDispatch_cases code clock r req resp with
      ⟨hf, -⟩ | ⟨-, hp, he⟩ | ⟨-, slot, e, hp, hlive, he⟩
  · rw [hv] at hf; simp at hf
  · rw [he, (toMap_none_iff r _).mpr hp]
  · obtain ⟨e', he', -, hmap⟩ := position_eq_some _ EventHandlerEntry.target hp
    rw [hlive, Option.some.injEq] at he'
    rw [he, EventHandlerRegistry.toMap, hmap, he']

theorem dispatch_ret (code : HandlerCode H X) (clock : Clock) (r : EventHandlerRegistry H X)
    {req : MgmtCommandRequest} (resp : MgmtCommandResponse) {target : H × X}
    (hv : mgmtRequestValidate req = true) (ht : r.toMap req.key = some target) :
    (handlerDispatch code clock r req resp).ret =
      (code target.1 clock req (prepareResponse req resp) target.2).1 := by
  have hinvoked := dispatch_target code clock r resp hv
  rw [ht] at hinvoked
  rcases handlerDispatch_cases code clock r req resp with
      ⟨-, he⟩ | ⟨-, -, he⟩ | ⟨-, slot, e, -, -, he⟩
  · rw [he] at hinvoked; simp at hinvoked
  · rw [he] at hinvoked; simp at hinvoked
  · rw [he, Option.some.injEq] at hinvoked
    rw [he, ← hinvoked]
    rfl

theorem dispatch_known (code : HandlerCode H X) {clock : Clock} {r : EventHandlerRegistry H X}
    {req : MgmtCommandRequest} {resp : MgmtCommandResponse}
    (hi : (handlerDispatch code clock r req resp).invoked ≠ none) :
    mgmtRequestValidate req = true ∧ ∃ target, r.toMap req.key = some target := by
  cases hv : mgmtRequestValidate req with
  | true =>
    rw [dispatch_target code clock r resp hv] at hi
    exact ⟨rfl, Option.ne_none_iff_exists'.mp hi⟩
  | false =>
    rcases handlerDispatch_cases code clock r req resp with ⟨-, he⟩ | ⟨hv', -⟩ | ⟨hv', -⟩
    · rw [he] at hi; exact absurd rfl hi
    · rw [hv] at hv'; simp at hv'
    · rw [hv] at hv'; simp at hv'

theorem dispatch_changes (code : HandlerCode H X) {clock : Clock} {r : EventHandlerRegistry H X}
    {req : MgmtCommandRequest} {resp : MgmtCommandResponse}
    (hi : (handlerDispatch code clock r req resp).invoked ≠ none) :
    (handlerDispatch code clock r req resp).registry ≠ r := by
  -- a dispatch that runs a handler counts it, so it always changes the registry
  rcases handlerDispatch_cases code clock r req resp with
      ⟨-, he⟩ | ⟨-, -, he⟩ | ⟨-, slot, e, -, -, he⟩
  · rw [he] at hi; exact absurd rfl hi
  · rw [he] at hi; exact absurd rfl hi
  · rw [he]
    intro hsame
    have hcount : r.totalDispatches + 1 = r.totalDispatches := congrArg (·.totalDispatches) hsame
    simp at hcount

theorem dispatch_idle (code : HandlerCode H X) {clock : Clock} {r : EventHandlerRegistry H X}
    {req : MgmtCommandRequest} {resp : MgmtCommandResponse}
    (hi : (handlerDispatch code clock r req resp).invoked = none) :
    (handlerDispatch code clock r req resp).registry = r := by
  rcases handlerDispatch_cases code clock r req resp with
      ⟨-, he⟩ | ⟨-, -, he⟩ | ⟨-, slot, e, -, -, he⟩
  · rw [he]
  · rw [he]
  · rw [he] at hi; simp at hi

end

end StudyC.Mgmt
