import StudyC.Mgmt.RegistryMap

/-!
# Sequential runs of the registry

Runs of any registry calls, one after the other, against the abstract map. The ghost history keeps
the successful registrations and removals, so that a dispatch can be compared with the last one.
-/

open CString KeyedList Runs

namespace StudyC.Mgmt

inductive Call (H X : Type) where
  | init (mutexOk : Bool)
  | register (m : ModuleName) (cmdType : UInt8) (handler : H) (context : X)
  | unregister (m : ModuleName) (cmdType : UInt8)
  /-- `code` is what the handlers do during this call. -/
  | dispatch (code : HandlerCode H X) (clock : Clock) (req : MgmtCommandRequest)
      (resp : MgmtCommandResponse)
  | statsReset

structure Outcome (H X : Type) where
  ret : Int
  registry : EventHandlerRegistry H X
  invoked : Option (H × X)

inductive Event (H X : Type) where
  | bound (k : Key) (target : H × X)
  | unbound (k : Key)

/-- The target of the last registration of the key, unless the key was removed after it. The latest
event comes first. -/
def lastBinding {H X : Type} : List (Event H X) → HandlerMap H X
  | [], _ => none
  | .bound k target :: es, k' => if k = k' then some target else lastBinding es k'
  | .unbound k :: es, k' => if k = k' then none else lastBinding es k'

structure Run (H X : Type) where
  registry : EventHandlerRegistry H X
  history : List (Event H X)

variable {H X : Type} [Zero H] [DecidableEq H]

def perform (r : EventHandlerRegistry H X) : Call H X → Outcome H X
  | .init ok => ⟨(handlerRegistryInit ok r).1, (handlerRegistryInit ok r).2, none⟩
  | .register m c h x =>
    ⟨(handlerRegister r (some m.name) c h x).1, (handlerRegister r (some m.name) c h x).2, none⟩
  | .unregister m c =>
    ⟨(handlerUnregister r (some m.name) c).1, (handlerUnregister r (some m.name) c).2, none⟩
  | .dispatch code clock req resp =>
    let o := handlerDispatch code clock r req resp
    ⟨o.ret, o.registry, o.invoked⟩
  | .statsReset => ⟨(handlerStatsReset r).1, (handlerStatsReset r).2, none⟩

def Call.event (ret : Int) : Call H X → Option (Event H X)
  | .register m c h x => if ret = 0 then some (.bound (c, m.name.bytes) (h, x)) else none
  | .unregister m c => if ret = 0 then some (.unbound (c, m.name.bytes)) else none
  | _ => none

/-- Only `handler_registry_init` may be called on a registry that is not initialised. -/
def Call.allowed (r : EventHandlerRegistry H X) : Call H X → Bool
  | .init _ => true
  | _ => r.initialized

def callStep (s : Run H X) (c : Call H X) : Option (Run H X) :=
  let o := perform s.registry c
  if c.allowed s.registry then some ⟨o.registry, (c.event o.ret).toList ++ s.history⟩ else none

def Run.start [Zero X] : Run H X := ⟨.static, []⟩

/-! ## What a call should do -/

/-- The return value and the new map, against the abstract registry. -/
def MapSpec (M : HandlerMap H X) (ret : Int) (M' : HandlerMap H X) : Call H X → Prop
  | .register m c h x =>
    (ret, M') = if Registrable c h then M.register (c, m.name.bytes) (h, x) else (-1, M)
  | .unregister m c => (ret, M') = M.unregister (c, m.name.bytes)
  | _ => M' = M

def EntriesSpec (r r' : EventHandlerRegistry H X) : Call H X → Prop
  | .register m c h x => Registrable c h → match r.place (c, m.name.bytes) with
    | some i => r'.entries.live = r.entries.live.modify i (.rebind h x)
    | none => (dom r.toMap).ncard < maxEventHandlers → ∃ e : EventHandlerEntry H X,
        e.binding = ((c, m.name.bytes), (h, x)) ∧ e.invocationCount = 0 ∧ e.totalLatencyUs = 0 ∧
        r'.entries.live = r.entries.live ++ [e]
  | .unregister m c => r'.entries.live = r.entries.live.filter fun e => e.key ≠ (c, m.name.bytes)
  | _ => r'.entries.live.map EventHandlerEntry.binding =
    r.entries.live.map EventHandlerEntry.binding

def TargetSpec (s : Run H X) (invoked : Option (H × X)) : Call H X → Prop
  | .dispatch _ _ req _ => mgmtRequestValidate req = true → invoked = lastBinding s.history req.key
  | _ => True

structure CallSpec (s : Run H X) (c : Call H X) : Prop where
  map : MapSpec s.registry.toMap (perform s.registry c).ret (perform s.registry c).registry.toMap c
  entries : EntriesSpec s.registry (perform s.registry c).registry c
  target : TargetSpec s (perform s.registry c).invoked c
  failure : (perform s.registry c).ret = -1 → (perform s.registry c).registry = s.registry

/-- A handler that is registered for a valid request does not return -1 on it. -/
def HandlerNotMinusOne (s : Run H X) : Call H X → Prop
  | .dispatch code clock req resp => mgmtRequestValidate req = true →
      ∀ target, s.registry.toMap req.key = some target →
        (code target.1 clock req (prepareResponse req resp) target.2).1 ≠ -1
  | _ => True

/-! ## Each call -/

structure RunInv (s : Run H X) : Prop where
  unique : s.registry.UniqueKeys
  history : lastBinding s.history = s.registry.toMap
  empty : s.registry.initialized = false → s.registry.entries.live = []

theorem perform_map {s : Run H X} (hinv : RunInv s) (c : Call H X) :
    MapSpec s.registry.toMap (perform s.registry c).ret
      (perform s.registry c).registry.toMap c := by
  cases c with
  | init ok => exact toMap_of_bindings (init_bindings hinv.empty ok)
  | register m c h x =>
    simp only [MapSpec, perform]
    split
    · rename_i hr
      exact register_refines hinv.unique m.fits hr
    · rename_i hr
      rw [handlerRegister_refused s.registry m.name c h x hr]
  | unregister m c => exact unregister_refines hinv.unique m.name c
  | dispatch code clock req resp =>
    exact toMap_of_bindings (dispatch_bindings code clock s.registry req resp)
  | statsReset => exact toMap_of_bindings (statsReset_bindings s.registry)

theorem register_entries {s : Run H X} (hinv : RunInv s) (m : ModuleName) (c : UInt8) (h : H)
    (x : X) :
    EntriesSpec s.registry (handlerRegister s.registry (some m.name) c h x).2
      (.register m c h x) := by
  intro hr
  rw [ncard_toMap hinv.unique]
  rcases register_live (r := s.registry) (x := x) m.fits hr with
    ⟨i, hi, -, hl⟩ | ⟨hp, hroom, -, e, hk, ht, hc, hu, hl⟩ | ⟨hp, hfull, -⟩
  · rw [hi]; exact hl
  · rw [hp]
    exact fun _ => ⟨e, by rw [EventHandlerEntry.binding, hk, ht], hc, hu, hl⟩
  · rw [hp]
    exact fun hroom => absurd hroom hfull

omit [DecidableEq H] in
theorem unregister_entries {r : EventHandlerRegistry H X} (hu : r.UniqueKeys) (m : ModuleName)
    (c : UInt8) : EntriesSpec r (handlerUnregister r (some m.name) c).2 (.unregister m c) := by
  rcases unregister_live hu m.name c with ⟨hp, he⟩ | ⟨i, -, -, -, hl⟩
  · have hnot := (position_eq_none EventHandlerEntry.key).mp hp
    simp only [EntriesSpec, he]
    rw [eq_comm, List.filter_eq_self]
    intro e hmem
    simp only [decide_eq_true_eq]
    exact fun hk => hnot (List.mem_map.mpr ⟨e, hmem, hk⟩)
  · exact hl

theorem handlerNotMinusOne_of_callSpec {s : Run H X} {code : HandlerCode H X} {clock : Clock}
    {req : MgmtCommandRequest} {resp : MgmtCommandResponse}
    (hspec : CallSpec s (.dispatch code clock req resp)) :
    HandlerNotMinusOne s (.dispatch code clock req resp) := by
  intro hv target ht hret
  have hi : (handlerDispatch code clock s.registry req resp).invoked ≠ none := by
    rw [dispatch_target code clock s.registry resp hv, ht]
    simp
  refine dispatch_changes code hi (hspec.failure ?_)
  rw [perform, dispatch_ret code clock s.registry resp hv ht, hret]

theorem callSpec_iff (s : Run H X) (c : Call H X) (hinv : RunInv s) :
    CallSpec s c ↔ HandlerNotMinusOne s c := by
  -- only a dispatch can go wrong, and it does exactly when the handler returns -1
  have hmap := perform_map hinv c
  cases c with
  | init ok =>
    exact iff_of_true ⟨hmap, init_bindings hinv.empty ok, trivial, init_failed⟩ trivial
  | register m c h x =>
    exact iff_of_true ⟨hmap, register_entries hinv m c h x, trivial, register_failed⟩ trivial
  | unregister m c =>
    exact iff_of_true ⟨hmap, unregister_entries hinv.unique m c, trivial, unregister_failed⟩ trivial
  | statsReset =>
    exact iff_of_true ⟨hmap, statsReset_bindings s.registry, trivial,
      fun hret => by cases hret⟩ trivial
  | dispatch code clock req resp =>
    refine ⟨handlerNotMinusOne_of_callSpec, fun hne => ?_⟩
    refine ⟨hmap, dispatch_bindings code clock s.registry req resp, fun hv => ?_, fun hret => ?_⟩
    · rw [hinv.history]
      exact dispatch_target code clock s.registry resp hv
    · apply dispatch_idle
      by_contra hi
      obtain ⟨hv, target, ht⟩ := dispatch_known code hi
      exact hne hv target ht ((dispatch_ret code clock s.registry resp hv ht).symm.trans hret)

/-! ## Whole runs -/

omit [Zero H] [DecidableEq H] in
theorem lastBinding_bound (k : Key) (target : H × X) (es : List (Event H X)) :
    lastBinding (.bound k target :: es) = Function.update (lastBinding es) k (some target) := by
  funext k'
  simp [lastBinding, Function.update_apply, eq_comm]

omit [Zero H] [DecidableEq H] in
theorem lastBinding_unbound (k : Key) (es : List (Event H X)) :
    lastBinding (.unbound k :: es) = Function.update (lastBinding es) k none := by
  funext k'
  simp [lastBinding, Function.update_apply, eq_comm]

theorem perform_initialized {r : EventHandlerRegistry H X} (hi : r.initialized = true)
    (c : Call H X) : (perform r c).registry.initialized = true := by
  cases c with
  | init ok => simp [perform, handlerRegistryInit, hi]
  | register m c h x =>
    rcases handlerRegister_cases r m.name c h x with ⟨he, -⟩ | ⟨-, i, -, he⟩ | ⟨-, -, -, old, he⟩
    all_goals rw [perform, he]; exact hi
  | unregister m c =>
    rcases handlerUnregister_cases r m.name c with ⟨-, he⟩ | ⟨i, -, -, he⟩
    all_goals rw [perform, he]; exact hi
  | dispatch code clock req resp =>
    rcases handlerDispatch_cases code clock r req resp with
        ⟨-, he⟩ | ⟨-, -, he⟩ | ⟨-, slot, e, -, -, he⟩
    all_goals rw [perform, he]; exact hi
  | statsReset => simpa only [perform, handlerStatsReset] using hi

theorem perform_uniqueKeys {s : Run H X} (hinv : RunInv s) (c : Call H X) :
    (perform s.registry c).registry.UniqueKeys := by
  cases c with
  | init ok => exact uniqueKeys_of_bindings hinv.unique (init_bindings hinv.empty ok)
  | register m c h x => exact register_uniqueKeys hinv.unique m.fits
  | unregister m c => exact unregister_uniqueKeys hinv.unique m.name c
  | dispatch code clock req resp =>
    exact uniqueKeys_of_bindings hinv.unique (dispatch_bindings code clock s.registry req resp)
  | statsReset => exact uniqueKeys_of_bindings hinv.unique (statsReset_bindings s.registry)

theorem perform_history {s : Run H X} (hinv : RunInv s) (c : Call H X) :
    lastBinding ((c.event (perform s.registry c).ret).toList ++ s.history) =
      (perform s.registry c).registry.toMap := by
  have hmap := perform_map hinv c
  have hhist := hinv.history
  generalize (perform s.registry c).ret = ret at hmap ⊢
  generalize (perform s.registry c).registry.toMap = M' at hmap ⊢
  cases c with
  | init ok | dispatch code clock req resp | statsReset => exact hhist.trans hmap.symm
  | register m c h x =>
    simp only [MapSpec, HandlerMap.register] at hmap
    split at hmap
    · split at hmap
      · obtain ⟨rfl, rfl⟩ := Prod.mk.inj hmap
        rw [← hhist]
        exact lastBinding_bound _ _ _
      · obtain ⟨rfl, rfl⟩ := Prod.mk.inj hmap
        exact hhist
    · obtain ⟨rfl, rfl⟩ := Prod.mk.inj hmap
      exact hhist
  | unregister m c =>
    simp only [MapSpec, HandlerMap.unregister] at hmap
    split at hmap
    · obtain ⟨rfl, rfl⟩ := Prod.mk.inj hmap
      rw [← hhist]
      exact lastBinding_unbound _ _
    · obtain ⟨rfl, rfl⟩ := Prod.mk.inj hmap
      exact hhist

theorem callStep_inv (s : Run H X) (c : Call H X) (s' : Run H X) (hinv : RunInv s)
    (hs : callStep s c = some s') : RunInv s' := by
  unfold callStep at hs
  split at hs
  · rename_i hallowed
    obtain rfl := Option.some.inj hs
    refine ⟨perform_uniqueKeys hinv c, perform_history hinv c, fun hnot => ?_⟩
    simp only at hnot ⊢
    cases hi : s.registry.initialized with
    | true => rw [perform_initialized hi c] at hnot; simp at hnot
    | false =>
      cases c with
      | init ok =>
        have hb := init_bindings hinv.empty ok
        rw [hinv.empty hi] at hb
        exact List.map_eq_nil_iff.mp hb
      | _ => exact absurd hallowed (by simp [Call.allowed, hi])
  · simp at hs

omit [DecidableEq H] in
theorem start_inv [Zero X] : RunInv (Run.start : Run H X) := by
  have hlive : (EventHandlerRegistry.static : EventHandlerRegistry H X).entries.live = [] := rfl
  refine ⟨?_, ?_, fun _ => hlive⟩
  · simp [EventHandlerRegistry.UniqueKeys, Run.start, hlive]
  · funext k
    simp [lastBinding, Run.start, EventHandlerRegistry.toMap, hlive, KeyedList.toMap]

/-- The registry refines the map in a run exactly if no handler that it dispatches returns -1. -/
theorem registry_refines_map [Zero X] (cs : List (Call H X)) :
    Along callStep CallSpec Run.start cs ↔
      Along callStep HandlerNotMinusOne Run.start cs :=
  along_congr (fun s c s' hinv _ hs => callStep_inv s c s' hinv hs) callSpec_iff start_inv cs

def oneModule : List (Call Nat Nat) :=
  [.init true, .register ⟨.lit "m", by decide, by decide⟩ 0 1 0]

/-- A ping to module `m`, whose handler fails with -1. -/
def failingPing : Call Nat Nat :=
  .dispatch (fun _ _ _ resp _ => (-1, resp)) ⟨⟨2, 0⟩, 2⟩
    (mgmtRequestInit ⟨⟨1, 0⟩, 1⟩ 0 (some (.lit "m")) []) .zero

theorem failed_handler_is_counted :
    ∃ s, exec callStep Run.start oneModule = some s ∧ (perform s.registry failingPing).ret = -1 ∧
      (perform s.registry failingPing).registry.totalDispatches = s.registry.totalDispatches + 1 ∧
      ¬ CallSpec s failingPing := by
  refine ⟨(exec callStep Run.start oneModule).get (by decide +kernel), (Option.some_get _).symm,
    by decide +kernel, by decide +kernel, fun hspec => ?_⟩
  exact handlerNotMinusOne_of_callSpec hspec (by decide +kernel) (1, 0) (by decide +kernel) rfl

end StudyC.Mgmt
