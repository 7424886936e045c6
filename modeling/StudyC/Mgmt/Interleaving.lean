import Mathlib.Data.Fintype.Basic
import StudyC.Lib.Runs
import StudyC.Mgmt.RegistryCalls

/-!
# Dispatch with other registry calls in between

The registry lock is free between the three steps of `handler_dispatch`, so a run mixes the steps
of any number of dispatches with any other registry calls. A dispatch keeps `matching_entry`, a
slot of the array, from its lookup to its accounting.
-/

open CString KeyedList Runs

namespace StudyC.Mgmt.Interleaving

inductive Phase (H X : Type) where
  | idle
  /-- The lock is released, the handler not called yet. `atLookup` is the registry of the lookup. -/
  | looked (req : MgmtCommandRequest) (resp : MgmtCommandResponse) (slot : Slot)
      (atLookup : EventHandlerRegistry H X)
  | invoked (req : MgmtCommandRequest) (resp : MgmtCommandResponse) (slot : Slot) (result : Int)

def Phase.pending {H X : Type} : Phase H X → Option (MgmtCommandRequest × Slot)
  | .idle => none
  | .looked req _ slot _ => some (req, slot)
  | .invoked req _ slot _ => some (req, slot)

structure State (T H X : Type) where
  registry : EventHandlerRegistry H X
  phase : T → Phase H X

inductive Action (T H X : Type) where
  | register (moduleName : Option CStr) (cmdType : UInt8) (handler : H) (context : X)
  | unregister (moduleName : Option CStr) (cmdType : UInt8)
  | statsReset
  | destroy
  | lookup (t : T) (req : MgmtCommandRequest) (resp : MgmtCommandResponse)
  /-- The handler returns `result` and leaves `resp`. -/
  | invoke (t : T) (result : Int) (resp : MgmtCommandResponse)
  | account (t : T)

variable {T H X : Type} [DecidableEq T] [Zero H] [DecidableEq H]

def step (s : State T H X) : Action T H X → Option (State T H X)
  | .register m c h x => some { s with registry := (handlerRegister s.registry m c h x).2 }
  | .unregister m c => some { s with registry := (handlerUnregister s.registry m c).2 }
  | .statsReset => some { s with registry := (handlerStatsReset s.registry).2 }
  | .destroy => some { s with registry := handlerRegistryDestroy s.registry }
  | .lookup t req resp => match s.phase t with
    | .idle => match dispatchLookup s.registry req resp with
      | .rejected _ _ => some s
      | .matched slot resp =>
        some { s with phase := Function.update s.phase t (.looked req resp slot s.registry) }
    | _ => none
  | .invoke t result resp => match s.phase t with
    | .looked req _ slot _ =>
      some { s with phase := Function.update s.phase t (.invoked req resp slot result) }
    | _ => none
  | .account t => match s.phase t with
    | .invoked _ resp slot result =>
      some ⟨(dispatchAccount s.registry slot result resp).1, Function.update s.phase t .idle⟩
    | _ => none

def init [Zero X] : State T H X := ⟨(handlerRegistryInit true .static).2, fun _ => .idle⟩

/-! ## The registry after each step of a dispatch -/

theorem lookup_registry {s s' : State T H X} {t : T} {req : MgmtCommandRequest}
    {resp : MgmtCommandResponse} (hs : step s (.lookup t req resp) = some s') :
    s'.registry = s.registry := by
  simp only [step] at hs
  split at hs
  · split at hs <;> (obtain rfl := Option.some.inj hs; rfl)
  · simp at hs

theorem invoke_registry {s s' : State T H X} {t : T} {result : Int} {resp : MgmtCommandResponse}
    (hs : step s (.invoke t result resp) = some s') : s'.registry = s.registry := by
  simp only [step] at hs
  split at hs
  · obtain rfl := Option.some.inj hs
    rfl
  · simp at hs

theorem account_registry {s s' : State T H X} {t : T} (hs : step s (.account t) = some s') :
    ∃ req resp slot result, s.phase t = .invoked req resp slot result ∧
      s'.registry = (dispatchAccount s.registry slot result resp).1 := by
  simp only [step] at hs
  split at hs
  · rename_i hph
    obtain rfl := Option.some.inj hs
    exact ⟨_, _, _, _, hph, rfl⟩
  · simp at hs

/-! ## The property -/

def Registered (r : EventHandlerRegistry H X) (k : Key) (target : H × X) : Prop :=
  ∃ e ∈ r.entries.live, e.key = k ∧ e.target = target

def HoldsKey (r : EventHandlerRegistry H X) (slot : Slot) (k : Key) : Prop :=
  slot.val < r.entries.count ∧ r.entries.slots[slot.val]?.map EventHandlerEntry.key = some k

/-- The handler to be called is registered for the key of the request, at the lookup or now. -/
def InvokeOk (r : EventHandlerRegistry H X) : Phase H X → Prop
  | .looked req _ slot atLookup => Registered atLookup req.key (dispatchInvoke r slot) ∨
      Registered r req.key (dispatchInvoke r slot)
  | _ => True

def AccountOk (r : EventHandlerRegistry H X) : Phase H X → Prop
  | .invoked req _ slot _ => HoldsKey r slot req.key
  | _ => True

def StepOk (s : State T H X) : Action T H X → Prop
  | .invoke t _ _ => InvokeOk s.registry (s.phase t)
  | .account t => AccountOk s.registry (s.phase t)
  | _ => True

/-- No call takes an entry away at or before a slot that a dispatch in flight points to. -/
def KeepsMatched (s : State T H X) : Action T H X → Prop
  | .unregister (some m) c => ∀ t, ∀ p ∈ (s.phase t).pending,
      ∀ i ∈ s.registry.findEntry c m.bytes, p.2 < i
  | .destroy => ∀ t, (s.phase t).pending = none
  | _ => True

/-! ## Each call, on one slot -/

omit [DecidableEq T] in
theorem holdsKey_register {r : EventHandlerRegistry H X} {slot : Slot} {k : Key}
    (h : HoldsKey r slot k) (m : Option CStr) (c : UInt8) (handler : H) (context : X) :
    HoldsKey (handlerRegister r m c handler context).2 slot k := by
  obtain ⟨hlt, hkey⟩ := h
  rcases m with _ | m
  · exact ⟨hlt, hkey⟩
  rcases handlerRegister_cases r m c handler context with
      ⟨he, -⟩ | ⟨-, i, -, he⟩ | ⟨-, -, hroom, old, he⟩
  · rw [he]; exact ⟨hlt, hkey⟩
  · rw [he]
    refine ⟨by simpa using hlt, ?_⟩
    simp only [SlotTable.slots_modify]
    split
    · simpa [Function.comp_def] using hkey
    · exact hkey
  · -- The new entry goes to the first dead slot.
    rw [he]
    refine ⟨by simp only [SlotTable.count_push _ _ hroom]; omega, ?_⟩
    simp only [SlotTable.slots_push _ _ hroom]
    rw [if_neg (by omega)]
    exact hkey

omit [DecidableEq T] [Zero H] [DecidableEq H] in
theorem holdsKey_unregister {r : EventHandlerRegistry H X} {slot : Slot} {k : Key}
    (h : HoldsKey r slot k) (m : CStr) (c : UInt8)
    (hkeep : ∀ i, r.findEntry c m.bytes = some i → slot < i) :
    HoldsKey (handlerUnregister r (some m) c).2 slot k := by
  obtain ⟨hlt, hkey⟩ := h
  rcases handlerUnregister_cases r m c with ⟨-, he⟩ | ⟨i, hi, -, he⟩
  · rw [he]; exact ⟨hlt, hkey⟩
  · have hsi : slot.val < i.val := hkeep i hi
    have hic := (findEntry_slot hi).1
    rw [he]
    refine ⟨by simp only [SlotTable.count_remove]; omega, ?_⟩
    simp only [SlotTable.slots_remove _ _ hic]
    rw [if_neg (by omega)]
    exact hkey

omit [DecidableEq T] [Zero H] [DecidableEq H] in
theorem holdsKey_statsReset {r : EventHandlerRegistry H X} {slot : Slot} {k : Key}
    (h : HoldsKey r slot k) : HoldsKey (handlerStatsReset r).2 slot k := by
  obtain ⟨hlt, hkey⟩ := h
  refine ⟨by simpa [handlerStatsReset] using hlt, ?_⟩
  simp only [handlerStatsReset, SlotTable.slots_mapLive, if_pos hlt, Option.map_map]
  exact hkey

omit [DecidableEq T] [Zero H] [DecidableEq H] in
theorem holdsKey_account {r : EventHandlerRegistry H X} {slot : Slot} {k : Key}
    (h : HoldsKey r slot k) (slot' : Slot) (result : Int) (resp : MgmtCommandResponse) :
    HoldsKey (dispatchAccount r slot' result resp).1 slot k := by
  obtain ⟨hlt, hkey⟩ := h
  refine ⟨by simpa [dispatchAccount] using hlt, ?_⟩
  simp only [dispatchAccount, SlotTable.slots_modify]
  split
  · rw [Option.map_map]; exact hkey
  · exact hkey

omit [DecidableEq T] [Zero H] [DecidableEq H] in
theorem registered_of_holdsKey {r : EventHandlerRegistry H X} {slot : Slot} {k : Key}
    (h : HoldsKey r slot k) : Registered r k (dispatchInvoke r slot) := by
  obtain ⟨hlt, hkey⟩ := h
  rw [Vector.getElem?_eq_getElem slot.isLt, Option.map_some, Option.some.injEq] at hkey
  refine ⟨r.entries.slots[slot.val], ?_, hkey, rfl⟩
  apply List.mem_of_getElem? (i := slot.val)
  rw [SlotTable.live_getElem?, if_pos hlt, Vector.getElem?_eq_getElem slot.isLt]

/-! ## Runs -/

/-- Every dispatch in flight points to a live entry with the key of its request. -/
def Inv (s : State T H X) : Prop :=
  ∀ t req slot, (s.phase t).pending = some (req, slot) → HoldsKey s.registry slot req.key

omit [Zero H] [DecidableEq H] in
theorem inv_update {s : State T H X} {t : T} {ph : Phase H X} {r : EventHandlerRegistry H X}
    (hinv : Inv ⟨r, s.phase⟩)
    (hph : ∀ req slot, ph.pending = some (req, slot) → HoldsKey r slot req.key) :
    Inv ⟨r, Function.update s.phase t ph⟩ := by
  intro t' req slot hp
  simp only at hp ⊢
  rcases eq_or_ne t' t with rfl | hne
  · rw [Function.update_self] at hp
    exact hph req slot hp
  · rw [Function.update_of_ne hne] at hp
    exact hinv t' req slot hp

theorem step_inv (s : State T H X) (a : Action T H X) (s' : State T H X) (hinv : Inv s)
    (hkeep : KeepsMatched s a) (hs : step s a = some s') : Inv s' := by
  cases a with
  | register m c h x =>
    obtain rfl := Option.some.inj hs
    exact fun t req slot hp => holdsKey_register (hinv t req slot hp) m c h x
  | unregister m c =>
    obtain rfl := Option.some.inj hs
    rcases m with _ | m
    · exact hinv
    · exact fun t req slot hp => holdsKey_unregister (hinv t req slot hp) m c (hkeep t _ hp)
  | statsReset =>
    obtain rfl := Option.some.inj hs
    exact fun t req slot hp => holdsKey_statsReset (hinv t req slot hp)
  | destroy =>
    obtain rfl := Option.some.inj hs
    intro t req slot hp
    rw [show (s.phase t).pending = none from hkeep t] at hp
    simp at hp
  | lookup t req resp =>
    simp only [step] at hs
    split at hs
    · rcases dispatchLookup_cases s.registry req resp with ⟨-, he⟩ | ⟨-, -, he⟩ | ⟨-, i, hi, -, he⟩
      · rw [he] at hs; obtain rfl := Option.some.inj hs; exact hinv
      · rw [he] at hs; obtain rfl := Option.some.inj hs; exact hinv
      · rw [he] at hs
        obtain rfl := Option.some.inj hs
        apply inv_update hinv
        rintro _ _ ⟨⟩
        exact findEntry_slot hi
    · simp at hs
  | invoke t result resp =>
    simp only [step] at hs
    split at hs
    · rename_i req _ slot _ hph
      obtain rfl := Option.some.inj hs
      apply inv_update hinv
      rintro _ _ ⟨⟩
      exact hinv t req slot (by rw [hph]; rfl)
    · simp at hs
  | account t =>
    simp only [step] at hs
    split at hs
    · obtain rfl := Option.some.inj hs
      apply inv_update
      · exact fun t' req slot hp => holdsKey_account (hinv t' req slot hp) _ _ _
      · rintro _ _ ⟨⟩
    · simp at hs

omit [DecidableEq T] [Zero H] [DecidableEq H] in
theorem stepOk_of_inv (s : State T H X) (a : Action T H X) (hinv : Inv s) : StepOk s a := by
  cases a with
  | invoke t result resp =>
    simp only [StepOk]
    cases hph : s.phase t with
    | looked req _ slot _ =>
      exact Or.inr (registered_of_holdsKey (hinv t req slot (by rw [hph]; rfl)))
    | _ => trivial
  | account t =>
    simp only [StepOk]
    cases hph : s.phase t with
    | invoked req _ slot _ => exact hinv t req slot (by rw [hph]; rfl)
    | _ => trivial
  | _ => trivial

/-- While no entry is taken away at or before a slot in flight, each dispatch calls a handler that
is registered for its request and accounts on the entry of its request. -/
theorem dispatch_keeps_its_entry [Zero X] (as : List (Action T H X))
    (h : Along step KeepsMatched (init : State T H X) as) :
    Along step StepOk (init : State T H X) as := by
  apply Along.mono step_inv (fun s a hinv _ => stepOk_of_inv s a hinv) _ h
  intro t req slot hp
  cases hp

theorem reachable_shortNames [Zero X] {s : State T H X} (h : Reachable step init s) :
    s.registry.ShortNames := by
  refine h.invariant (I := fun s => s.registry.ShortNames) ?_ fun s a s' hshort hs => ?_
  · have hlive : (init : State T H X).registry.entries.live = [] := rfl
    simp [EventHandlerRegistry.ShortNames, hlive]
  · cases a with
    | register m c handler context =>
      obtain rfl := Option.some.inj hs
      rcases m with _ | m
      · exact hshort
      · exact register_shortNames hshort m c handler context
    | unregister m c =>
      obtain rfl := Option.some.inj hs
      rcases m with _ | m
      · exact hshort
      · exact unregister_shortNames hshort m c
    | statsReset =>
      obtain rfl := Option.some.inj hs
      exact shortNames_of_bindings hshort (statsReset_bindings _)
    | destroy =>
      obtain rfl := Option.some.inj hs
      simp only [handlerRegistryDestroy]
      split
      · exact hshort
      · simp [EventHandlerRegistry.ShortNames]
    | lookup t req resp => rwa [lookup_registry hs]
    | invoke t result resp => rwa [invoke_registry hs]
    | account t =>
      obtain ⟨_, _, _, _, -, he⟩ := account_registry hs
      rw [he]
      exact shortNames_of_bindings hshort (dispatchAccount_bindings _ _ _ _)

/-! ## A removal between the steps -/

def threeModules : List (Action Unit Nat Nat) :=
  [.register (some (.lit "a")) 0 1 10, .register (some (.lit "b")) 0 2 20,
    .register (some (.lit "c")) 0 3 30]

def pingB : MgmtCommandRequest := mgmtRequestInit ⟨⟨1, 0⟩, 1⟩ 0 (some (.lit "b")) []

/-- Module `a` goes while the ping to `b` is between its lookup and its invocation. -/
def removedInFlight : List (Action Unit Nat Nat) :=
  threeModules ++ [.lookup () pingB .zero, .unregister (some (.lit "a")) 0]

section
variable [DecidableEq X]

instance (r : EventHandlerRegistry H X) (k : Key) (target : H × X) :
    Decidable (Registered r k target) :=
  inferInstanceAs (Decidable (∃ e ∈ _, _))

instance (r : EventHandlerRegistry H X) (slot : Slot) (k : Key) : Decidable (HoldsKey r slot k) :=
  inferInstanceAs (Decidable (_ ∧ _))

instance (r : EventHandlerRegistry H X) : DecidablePred (InvokeOk r)
  | .looked _ _ _ _ => inferInstanceAs (Decidable (Registered _ _ _ ∨ Registered _ _ _))
  | .idle | .invoked _ _ _ _ => .isTrue trivial

instance (r : EventHandlerRegistry H X) : DecidablePred (AccountOk r)
  | .invoked _ _ _ _ => inferInstanceAs (Decidable (HoldsKey _ _ _))
  | .idle | .looked _ _ _ _ => .isTrue trivial

instance (s : State T H X) : DecidablePred (StepOk s)
  | .invoke t _ _ => inferInstanceAs (Decidable (InvokeOk s.registry (s.phase t)))
  | .account t => inferInstanceAs (Decidable (AccountOk s.registry (s.phase t)))
  | .register _ _ _ _ | .unregister _ _ | .statsReset | .destroy | .lookup _ _ _ => .isTrue trivial

end

instance [Fintype T] (s : State T H X) : DecidablePred (KeepsMatched s)
  | .unregister (some _) _ => inferInstanceAs (Decidable (∀ _, ∀ p ∈ _, ∀ i ∈ _, _))
  | .destroy => inferInstanceAs (Decidable (∀ _, _ = _))
  | .unregister none _ | .register _ _ _ _ | .statsReset | .invoke _ _ _ | .account _
  | .lookup _ _ _ => .isTrue trivial

theorem removal_misleads_dispatch :
    (∃ s, exec step init removedInFlight = some s ∧ ¬ StepOk s (.invoke () 0 .zero)) ∧
      ∃ s, exec step init (removedInFlight ++ [.invoke () 0 .zero]) = some s ∧
        ¬ StepOk s (.account ()) := by
  refine ⟨⟨(exec step init removedInFlight).get (by decide +kernel), ?_, ?_⟩,
    ⟨(exec step init (removedInFlight ++ [.invoke () 0 .zero])).get (by decide +kernel), ?_, ?_⟩⟩
  · exact (Option.some_get _).symm
  · decide +kernel
  · exact (Option.some_get _).symm
  · decide +kernel

theorem later_removal_keeps_dispatch :
    Along step StepOk init (threeModules ++ [.lookup () pingB .zero,
      .unregister (some (.lit "c")) 0, .invoke () 0 .zero, .account ()]) :=
  dispatch_keeps_its_entry _ (by decide +kernel)

end StudyC.Mgmt.Interleaving
