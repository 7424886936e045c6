import StudyC.Mgmt.Interleaving

/-!
# Registry statistics

The totals of the registry against the counts of its entries, when dispatches and other calls mix as
in `Interleaving`. A dispatch may account on a slot that no longer holds its entry.
-/

open CString Runs

namespace StudyC.Mgmt.Statistics

open Interleaving (Action)

variable {T H X : Type}

/-- The sum of `invocation_count` over the entries below `entry_count`. -/
def invocations (r : EventHandlerRegistry H X) : Nat :=
  r.entries.sum fun e => e.invocationCount.toNat

structure State (T H X : Type) where
  base : Interleaving.State T H X
  /-- Dispatches accounted since a call last zeroed the totals. -/
  accounted : Nat

def tally (s : State T H X) : Action T H X → Nat
  | .statsReset => 0
  | .destroy => if s.base.registry.initialized then 0 else s.accounted
  | .account _ => s.accounted + 1
  | _ => s.accounted

section
variable [DecidableEq T] [Zero H] [DecidableEq H]

def step (s : State T H X) (a : Action T H X) : Option (State T H X) :=
  (Interleaving.step s.base a).map fun base => ⟨base, tally s a⟩

def start [Zero X] : State T H X := ⟨Interleaving.init, 0⟩

theorem exec_base (s : State T H X) (as : List (Action T H X)) :
    (exec step s as).map State.base = exec Interleaving.step s.base as := by
  -- the counts are a ghost: the runs are those of `Interleaving`
  induction as generalizing s with
  | nil => rfl
  | cons a as ih =>
    simp only [exec, step]
    cases Interleaving.step s.base a with
    | none => rfl
    | some base => exact ih ⟨base, tally s a⟩

end

/-- The totals do not wrap in this step. -/
def Few (s : State T H X) : Action T H X → Prop
  | .account _ => s.accounted + 1 < 2 ^ 32
  | _ => True

/-- No entry goes and none is bound again. -/
def Grows [Zero H] (s : State T H X) : Action T H X → Prop
  | .register (some m) c handler _ =>
    Registrable c handler → s.base.registry.findEntry c m.bytes = none
  | .unregister _ _ | .destroy => False
  | _ => True

/-! ## Each call -/

structure Consistent (r : EventHandlerRegistry H X) (accounted : Nat) : Prop where
  dispatches : r.totalDispatches.toNat = accounted
  failures : r.totalFailures.toNat ≤ accounted
  invocations : invocations r ≤ accounted

section
variable {r : EventHandlerRegistry H X} {n : Nat}

theorem consistent_register [Zero H] [DecidableEq H] (h : Consistent r n) (m : Option CStr)
    (c : UInt8) (handler : H) (context : X) :
    Consistent (handlerRegister r m c handler context).2 n := by
  rcases m with _ | m
  · exact h
  rcases handlerRegister_cases r m c handler context with
      ⟨he, -⟩ | ⟨-, i, -, he⟩ | ⟨-, -, hroom, old, he⟩
  · rw [he]; exact h
  · rw [he]
    refine ⟨h.dispatches, h.failures, ?_⟩
    exact (SlotTable.sum_modify_le (d := 0) r.entries i fun e => Nat.zero_le _).trans h.invocations
  · rw [he]
    refine ⟨h.dispatches, h.failures, ?_⟩
    exact (SlotTable.sum_push r.entries _ hroom).trans_le h.invocations

theorem consistent_unregister (h : Consistent r n) (m : Option CStr) (c : UInt8) :
    Consistent (handlerUnregister r m c).2 n := by
  rcases m with _ | m
  · exact h
  rcases handlerUnregister_cases r m c with ⟨-, he⟩ | ⟨i, hi, -, he⟩
  · rw [he]; exact h
  · rw [he]
    refine ⟨h.dispatches, h.failures, ?_⟩
    exact (SlotTable.sum_remove_le r.entries (findEntry_slot hi).1).trans h.invocations

theorem invocations_statsReset (r : EventHandlerRegistry H X) :
    invocations (handlerStatsReset r).2 = 0 :=
  SlotTable.sum_mapLive_zero r.entries fun _ => rfl

theorem consistent_statsReset (r : EventHandlerRegistry H X) :
    Consistent (handlerStatsReset r).2 0 :=
  ⟨rfl, Nat.le_refl _, (invocations_statsReset r).le⟩

theorem consistent_destroy (h : Consistent r n) :
    Consistent (handlerRegistryDestroy r) (if r.initialized then 0 else n) := by
  unfold handlerRegistryDestroy
  cases r.initialized
  · exact h
  · exact ⟨rfl, Nat.le_refl _, (SlotTable.sum_clear r.entries).le⟩

theorem consistent_account (h : Consistent r n) (hfew : n + 1 < 2 ^ 32) (slot : Slot) (result : Int)
    (resp : MgmtCommandResponse) : Consistent (dispatchAccount r slot result resp).1 (n + 1) := by
  have hdispatches := h.dispatches
  have hfailures := h.failures
  refine ⟨?_, ?_, ?_⟩
  · simp only [dispatchAccount, UInt32.toNat_add, UInt32.reduceToNat]
    omega
  · simp only [dispatchAccount]
    split
    · simp only [UInt32.toNat_add, UInt32.reduceToNat]
      omega
    · omega
  · -- Whatever the slot holds, its count grows by at most one.
    refine (SlotTable.sum_modify_le (d := 1) r.entries slot fun e => ?_).trans
      (Nat.add_le_add_right h.invocations 1)
    simp only [UInt32.toNat_add, UInt32.reduceToNat]
    omega

theorem invocations_register [Zero H] [DecidableEq H] {m : Option CStr} {c : UInt8} {handler : H}
    (hnew : ∀ m', m = some m' → Registrable c handler → r.findEntry c m'.bytes = none)
    (context : X) : invocations (handlerRegister r m c handler context).2 = invocations r := by
  rcases m with _ | m
  · rfl
  rcases handlerRegister_cases r m c handler context with
      ⟨he, -⟩ | ⟨hok, i, hi, -⟩ | ⟨-, -, hroom, old, he⟩
  · rw [he]
  · have hnone := findEntry_none (hnew m rfl hok)
    rw [CStr.cstr_bytes, hi] at hnone
    simp at hnone
  · rw [he]
    exact SlotTable.sum_push r.entries _ hroom

theorem invocations_account (hfew : invocations r + 1 < 2 ^ 32) {slot : Slot}
    (hslot : slot.val < r.entries.count) (result : Int) (resp : MgmtCommandResponse) :
    invocations (dispatchAccount r slot result resp).1 = invocations r + 1 := by
  refine SlotTable.sum_modify r.entries hslot fun e he => ?_
  have hle : e.invocationCount.toNat ≤ invocations r :=
    SlotTable.le_sum (g := fun e => e.invocationCount.toNat) he
  simp only [UInt32.toNat_add, UInt32.reduceToNat]
  omega

end

/-! ## Runs -/

variable [DecidableEq T] [Zero H] [DecidableEq H]

theorem step_consistent (s : State T H X) (a : Action T H X) (s' : State T H X)
    (h : Consistent s.base.registry s.accounted) (hfew : Few s a) (hs : step s a = some s') :
    Consistent s'.base.registry s'.accounted := by
  obtain ⟨base, hb, rfl⟩ := Option.map_eq_some_iff.mp hs
  cases a with
  | register m c handler context =>
    obtain rfl := Option.some.inj hb
    exact consistent_register h m c handler context
  | unregister m c =>
    obtain rfl := Option.some.inj hb
    exact consistent_unregister h m c
  | statsReset =>
    obtain rfl := Option.some.inj hb
    exact consistent_statsReset _
  | destroy =>
    obtain rfl := Option.some.inj hb
    exact consistent_destroy h
  | lookup t req resp => simpa only [tally, Interleaving.lookup_registry hb] using h
  | invoke t result resp => simpa only [tally, Interleaving.invoke_registry hb] using h
  | account t =>
    obtain ⟨_, resp, slot, result, -, he⟩ := Interleaving.account_registry hb
    simp only [he]
    exact consistent_account h hfew slot result resp

/-- Every accounted dispatch is one invocation of a live entry, and each dispatch in flight points
to such an entry. -/
structure Exact (s : State T H X) : Prop where
  consistent : Consistent s.base.registry s.accounted
  inv : Interleaving.Inv s.base
  invocations : invocations s.base.registry = s.accounted

omit [DecidableEq T] [DecidableEq H] in
theorem keepsMatched_of_grows (s : State T H X) (a : Action T H X) (h : Grows s a) :
    Interleaving.KeepsMatched s.base a := by
  cases a with
  | unregister m c => exact h.elim
  | destroy => exact h.elim
  | _ => trivial

theorem step_exact (s : State T H X) (a : Action T H X) (s' : State T H X) (h : Exact s)
    (hP : Few s a ∧ Grows s a) (hs : step s a = some s') : Exact s' := by
  obtain ⟨hfew, hgrows⟩ := hP
  have hconsistent := step_consistent s a s' h.consistent hfew hs
  obtain ⟨base, hb, rfl⟩ := Option.map_eq_some_iff.mp hs
  refine ⟨hconsistent, Interleaving.step_inv _ a _ h.inv (keepsMatched_of_grows s a hgrows) hb, ?_⟩
  have heq := h.invocations
  cases a with
  | register m c handler context =>
    obtain rfl := Option.some.inj hb
    refine (invocations_register ?_ context).trans heq
    rintro m' rfl
    exact hgrows
  | unregister m c => exact hgrows.elim
  | statsReset =>
    obtain rfl := Option.some.inj hb
    exact invocations_statsReset _
  | destroy => exact hgrows.elim
  | lookup t req resp => simpa only [tally, Interleaving.lookup_registry hb] using heq
  | invoke t result resp => simpa only [tally, Interleaving.invoke_registry hb] using heq
  | account t =>
    obtain ⟨req, resp, slot, result, hph, he⟩ := Interleaving.account_registry hb
    have hslot := (h.inv t req slot (by rw [hph]; rfl)).1
    simp only [he, tally, ← heq]
    exact invocations_account (heq ▸ hfew) hslot result resp

omit [DecidableEq T] [DecidableEq H] in
theorem start_exact [Zero X] : Exact (start : State T H X) := by
  refine ⟨⟨rfl, Nat.le_refl _, Nat.le_refl _⟩, ?_, rfl⟩
  intro t req slot hp
  cases hp

/-- As long as the totals do not wrap they bound the failures and the invocations of the live
entries. The invocations reach the total as long as the registry only grows. -/
theorem statistics_bounded [Zero X] {s : Interleaving.State T H X} (as : List (Action T H X))
    (hfew : Along step Few start as) (hrun : exec Interleaving.step Interleaving.init as = some s) :
    s.registry.totalFailures ≤ s.registry.totalDispatches ∧
      invocations s.registry ≤ s.registry.totalDispatches.toNat ∧
      (Along step Grows start as → invocations s.registry = s.registry.totalDispatches.toNat) := by
  obtain ⟨s, hs, rfl⟩ := Option.map_eq_some_iff.mp ((exec_base start as).trans hrun)
  have h := invariant step_consistent start_exact.consistent hfew hs
  refine ⟨?_, h.invocations.trans_eq h.dispatches.symm, fun hgrows => ?_⟩
  · rw [UInt32.le_iff_toNat_le, h.dispatches]
    exact h.failures
  · have hexact := invariant step_exact start_exact (hfew.and hgrows) hs
    exact hexact.invocations.trans h.dispatches.symm

instance (s : State T H X) : DecidablePred (Few s)
  | .account _ => inferInstanceAs (Decidable (_ < _))
  | .register _ _ _ _ | .unregister _ _ | .statsReset | .destroy | .lookup _ _ _ | .invoke _ _ _ =>
    .isTrue trivial

instance (s : State T H X) : DecidablePred (Grows s)
  | .register (some _) _ _ _ => inferInstanceAs (Decidable (_ → _))
  | .unregister _ _ | .destroy => .isFalse id
  | .register none _ _ _ | .statsReset | .account _ | .lookup _ _ _ | .invoke _ _ _ =>
    .isTrue trivial

/-- The totals are reset while the ping to `b` is with its handler, which fails. -/
def resetInFlight : List (Action Unit Nat Nat) :=
  Interleaving.threeModules ++
    [.lookup () Interleaving.pingB .zero, .statsReset, .invoke () (-1) .zero,
    .account ()]

theorem resetInFlight_exact : ∃ s, exec Interleaving.step Interleaving.init resetInFlight = some s ∧
    s.registry.totalFailures ≤ s.registry.totalDispatches ∧
    invocations s.registry = s.registry.totalDispatches.toNat := by
  have hrun := (Option.some_get (x := exec Interleaving.step Interleaving.init resetInFlight)
    (by decide +kernel)).symm
  obtain ⟨hfailures, -, hexact⟩ := statistics_bounded resetInFlight (by decide +kernel) hrun
  exact ⟨_, hrun, hfailures, hexact (by decide +kernel)⟩

end StudyC.Mgmt.Statistics
