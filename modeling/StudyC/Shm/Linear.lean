import StudyC.Lib.AtomicObject
import StudyC.Lib.Refinement
import StudyC.Shm.Atomic

/-!
# The shared memory as an atomic object

`Lock` interleaves the calls of many processes access by access. Here the calls are seen from
outside: a write takes effect with its last store, a read as it returns, and every run is a run of
the atomic object whose operations are `shm_api_write` and `shm_api_read`. Processes may die
anywhere but between the first and the last store of a write.
-/

open CString Runs

namespace StudyC.Shm.Linear

open Lock (Access Phase Action Loaded State accesses performAll readResult)
open AtomicObject (Status Event)

variable {P : Type} [DecidableEq P] {n : Nat}

deriving instance DecidableEq for ReadResult

inductive Returned where
  | wrote (ret : Bool)
  | read (result : ReadResult)
  deriving DecidableEq

/-- A call on the region, all at once. -/
def apply (shm : SharedData n) : Call → SharedData n × Returned
  | .write status msg =>
    let o := shmApiWrite true shm status msg
    (o.2, .wrote o.1)
  | .read wantStatus outMsg => (shm, .read (shmApiRead true shm wantStatus outMsg))

/-- What a caller sees of a step, and the point at which its call takes effect. -/
def label (s : State P n) : Action P → List (Event P Call Returned)
  | .call p c => [.invoke p c]
  | .lock _ => []
  | .access p => match s.phase p with
    | .critical (.write _ _) [_] _ => [.perform p]
    | _ => []
  | .unlock p => match s.phase p with
    | .critical (.read _ outMsg) [] got =>
      [.perform p, .respond p (.read (readResult n outMsg got))]
    | .critical (.write _ _) [] _ => [.respond p (.wrote true)]
    | _ => []
  | .die p => [.crash p]

/-- A process that dies in a write has stored nothing yet, or everything. -/
def DiesWhole (s : State P n) : Action P → Prop
  | .die p => match s.phase p with
    | .critical (.write status msg) todo _ =>
      todo = [] ∨ todo.length = (accesses n (.write status msg)).length
    | _ => True
  | _ => True

/-! ## The relation -/

def statusOf : Phase → Status Call Returned
  | .idle => .idle
  | .locking c => .invoked c
  | .critical (.write _ _) [] _ => .performed (.wrote true)
  | .critical c _ _ => .invoked c
  | .dead => .crashed

/-- How the region of a process inside the lock comes about from the one of the atomic object. -/
def Doing (obj shm : SharedData n) : Call → List Access → Loaded → Prop
  | .write _ _, [], _ => obj = shm
  | c, todo, got => ∃ pre, accesses n c = pre ++ todo ∧ performAll pre obj ⟨none, []⟩ = (shm, got)

structure Refines (robustMacro : Bool) (s : State P n)
    (t : AtomicObject.State P (SharedData n) Call Returned) : Prop where
  robust : s.mutex.robust = robustMacro
  proc : t.proc = statusOf ∘ s.phase
  inside : ∀ p c todo got, s.phase p = .critical c todo got →
    s.mutex.owner = some p ∧ Doing t.obj s.shm c todo got
  outside : (∀ p c todo got, s.phase p ≠ .critical c todo got) → t.obj = s.shm

variable {robustMacro : Bool} {s : State P n}
    {t : AtomicObject.State P (SharedData n) Call Returned}
  {p q : P} {c c' : Call} {todo todo' : List Access} {got got' : Loaded} {obj shm : SharedData n}
    {s' : State P n}

omit [DecidableEq P] in
theorem init_refines (shm : SharedData n) :
    Refines robustMacro (Lock.init robustMacro shm : State P n) (AtomicObject.init shm) :=
  ⟨rfl, rfl, fun p c todo got hp => by simp [Lock.init] at hp, fun _ => rfl⟩

omit [DecidableEq P] in
theorem Refines.alone (h : Refines robustMacro s t) (hp : s.phase p = .critical c todo got) (q : P)
    (c' : Call) (todo' : List Access) (got' : Loaded) (hne : q ≠ p) :
    s.phase q ≠ .critical c' todo' got' := by
  intro hq
  exact hne
    (Option.some.inj ((h.inside q c' todo' got' hq).1.symm.trans (h.inside p c todo got hp).1))

omit [DecidableEq P] in
theorem Refines.nobody_of_granted (h : Refines robustMacro s t) {ret : Lock.LockResult}
    (hlock : Lock.pthreadMutexLock s.phase s.mutex = some ret) (q : P) (c : Call)
    (todo : List Access) (got : Loaded) : s.phase q ≠ .critical c todo got := by
  -- the lock is granted when nobody is inside: the owner, if there is one, is dead
  intro hq
  simp [Lock.pthreadMutexLock, (h.inside q c todo got hq).1, hq, Phase.isDead] at hlock

omit [DecidableEq P] in
theorem Refines.safeLock (h : Refines robustMacro s t) {ret : Lock.LockResult}
    (hlock : Lock.pthreadMutexLock s.phase s.mutex = some ret) :
    Lock.safeLock robustMacro ret = true := by
  -- `EOWNERDEAD` is returned only where `safe_lock` recovers from it
  cases ret with
  | ok => rfl
  | ownerDead =>
    simp only [Lock.pthreadMutexLock] at hlock
    split at hlock
    · simp at hlock
    · split at hlock
      · simp_all [Lock.safeLock, h.robust]
      · simp at hlock

theorem Refines.outer (h : Refines robustMacro s t) {ph : Phase}
    (hp : ∀ c todo got, s.phase p ≠ .critical c todo got)
    (hph : ∀ c todo got, ph ≠ .critical c todo got) :
    Refines robustMacro (s.setPhase p ph) ⟨t.obj, Function.update t.proc p (statusOf ph)⟩ := by
  refine ⟨h.robust, ?_, ?_, ?_⟩
  · rw [h.proc]
    exact (Function.comp_update _ _ _ _).symm
  · intro q c todo got hq
    simp only [Lock.State.setPhase, Function.update_apply] at hq
    split at hq
    · exact absurd hq (hph c todo got)
    · exact h.inside q c todo got hq
  · intro hnone
    apply h.outside
    intro q c todo got hq
    by_cases hqp : q = p
    · subst hqp
      exact hp c todo got hq
    · apply hnone q c todo got
      simpa [Lock.State.setPhase, Function.update_of_ne hqp] using hq

theorem Refines.leave (h : Refines robustMacro s t)
    (halone : ∀ q c todo got, q ≠ p → s.phase q ≠ .critical c todo got) {ph : Phase}
    (hph : ∀ c todo got, ph ≠ .critical c todo got) (hrobust : s'.mutex.robust = s.mutex.robust)
    (hphase : s'.phase = Function.update s.phase p ph) (hobj : obj = s'.shm) :
    Refines robustMacro s' ⟨obj, Function.update t.proc p (statusOf ph)⟩ := by
  refine ⟨hrobust.trans h.robust, ?_, ?_, fun _ => hobj⟩
  · rw [h.proc, hphase]
    exact (Function.comp_update _ _ _ _).symm
  · intro q c todo got hq
    rw [hphase, Function.update_apply] at hq
    split at hq
    · exact absurd hq (hph c todo got)
    · rename_i hqp
      exact absurd hq (halone q c todo got hqp)

theorem Refines.stay (h : Refines robustMacro s t)
    (halone : ∀ q c todo got, q ≠ p → s.phase q ≠ .critical c todo got)
    (hrobust : s'.mutex.robust = s.mutex.robust) (howner : s'.mutex.owner = some p)
    (hphase : s'.phase = Function.update s.phase p (.critical c todo got))
    (hdoing : Doing obj s'.shm c todo got) :
    Refines robustMacro s' ⟨obj, Function.update t.proc p (statusOf (.critical c todo got))⟩ := by
  refine ⟨hrobust.trans h.robust, ?_, ?_, ?_⟩
  · rw [h.proc, hphase]
    exact (Function.comp_update _ _ _ _).symm
  · intro q c' todo' got' hq
    rw [hphase, Function.update_apply] at hq
    split at hq
    · rename_i hqp
      injection hq with hc htodo hgot
      subst hqp hc htodo hgot
      exact ⟨howner, hdoing⟩
    · rename_i hqp
      exact absurd hq (halone q c' todo' got' hqp)
  · intro hnone
    exact absurd (by rw [hphase, Function.update_self]) (hnone p c todo got)

theorem Refines.stay_silent (h : Refines robustMacro s t)
    (halone : ∀ q c todo got, q ≠ p → s.phase q ≠ .critical c todo got)
    (hrobust : s'.mutex.robust = s.mutex.robust) (howner : s'.mutex.owner = some p)
    (hphase : s'.phase = Function.update s.phase p (.critical c todo got))
    (hdoing : Doing t.obj s'.shm c todo got)
    (hstatus : statusOf (s.phase p) = statusOf (.critical c todo got)) :
    Refines robustMacro s' t := by
  have hstays := h.stay halone hrobust howner hphase hdoing
  rwa [← hstatus, show statusOf (s.phase p) = t.proc p by rw [h.proc]; rfl, Function.update_eq_self]
    at hstays

/-! ## What a call does to the region -/

theorem performAll_loads (xs : List Access)
    (hxs : ∀ x ∈ xs, ∀ (shm : SharedData n) got, (x.perform shm got).1 = shm) (obj : SharedData n)
    (got : Loaded) : (performAll xs obj got).1 = obj := by
  induction xs generalizing got with
  | nil => rfl
  | cons x xs ih =>
    have hcons : performAll (x :: xs) obj got =
        performAll xs (x.perform obj got).1 (x.perform obj got).2 := rfl
    rw [hcons, hxs x (.head xs), ih fun y hy => hxs y (.tail x hy)]

theorem Doing.of_read {wantStatus : Bool} {outMsg : Option (Vector UInt8 maxPayloadSize)}
    (h : Doing obj shm (.read wantStatus outMsg) todo got) : obj = shm := by
  obtain ⟨pre, hsplit, hdone⟩ := h
  have hloads : ∀ x ∈ pre, ∀ (shm : SharedData n) got, (x.perform shm got).1 = shm := by
    intro x hx shm got
    exact Atomic.perform_read (by rw [hsplit]; exact List.mem_append_left _ hx) shm got
  have hsame := performAll_loads pre hloads obj ⟨none, []⟩
  rw [hdone] at hsame
  exact hsame.symm

theorem Doing.of_write {status : Int32} {msg : CStr}
    (h : Doing obj shm (.write status msg) todo got)
    (hwhole : todo = [] ∨ todo.length = (accesses n (.write status msg)).length) : obj = shm := by
  -- before its first store and after its last one, a write leaves the region to the object
  cases todo with
  | nil => exact h
  | cons x todo =>
    obtain ⟨pre, hsplit, hdone⟩ := h
    rcases hwhole with hnil | hlen
    · simp at hnil
    · obtain rfl : pre = [] := by
        rw [hsplit, List.length_append] at hlen
        exact List.length_eq_zero_iff.mp (by omega)
      exact congrArg Prod.fst hdone

theorem Doing.next {x : Access} (h : Doing obj shm c (x :: todo) got) :
    ∃ pre, accesses n c = pre ++ todo ∧
      performAll pre obj ⟨none, []⟩ = x.perform shm got := by
  obtain ⟨pre, hsplit, hdone⟩ : ∃ pre, accesses n c = pre ++ x :: todo ∧
      performAll pre obj ⟨none, []⟩ = (shm, got) := by
    cases c <;> exact h
  exact ⟨pre ++ [x], by simp [hsplit], by rw [Atomic.performAll_snoc, hdone]⟩

theorem Doing.last_store (hn : 0 < n) {status : Int32} {msg : CStr} {x : Access}
    (h : Doing obj shm (.write status msg) [x] got) :
    (apply obj (.write status msg)).1 = (x.perform shm got).1 := by
  obtain ⟨pre, hsplit, hdone⟩ := h.next
  rw [List.append_nil] at hsplit
  rw [← hdone, ← hsplit, Lock.performAll_write hn]
  rfl

theorem Doing.loaded (hn : 0 < n) {wantStatus : Bool}
    {outMsg : Option (Vector UInt8 maxPayloadSize)}
    (h : Doing obj shm (.read wantStatus outMsg) [] got) :
    (apply obj (.read wantStatus outMsg)).2 = .read (readResult n outMsg got) := by
  obtain ⟨pre, hsplit, hdone⟩ := h
  obtain ⟨got', hread, hresult⟩ := Lock.performAll_read hn obj wantStatus outMsg
  rw [hsplit, List.append_nil, hdone, Prod.mk.injEq] at hread
  rw [hread.2, hresult]
  rfl

/-! ## One step -/

theorem refines_call (h : Refines robustMacro s t)
    (hs : Lock.step robustMacro s (.call p c) = some s') :
    ∃ t', exec (AtomicObject.step apply) t (label s (.call p c)) = some t' ∧
      Refines robustMacro s' t' := by
  simp only [Lock.step] at hs
  split at hs
  · rename_i hp
    obtain rfl := Option.some.inj hs
    refine ⟨_, AtomicObject.exec_invoke (by simp [h.proc, hp, statusOf]), h.outer ?_ ?_⟩
    · simp [hp]
    · simp
  · simp at hs

theorem refines_lock (h : Refines robustMacro s t)
    (hs : Lock.step robustMacro s (.lock p) = some s') :
    ∃ t', exec (AtomicObject.step apply) t (label s (.lock p)) = some t' ∧
      Refines robustMacro s' t' := by
  simp only [Lock.step] at hs
  split at hs
  · rename_i c hp
    obtain ⟨ret, hret, rfl⟩ := Option.map_eq_some_iff.mp hs
    rw [if_pos (h.safeLock hret)]
    refine ⟨t, rfl, h.stay_silent (fun q c todo got _ => h.nobody_of_granted hret q c todo got) rfl
      rfl rfl ?_ ?_⟩
    · have hobj : t.obj = s.shm := h.outside (h.nobody_of_granted hret)
      rw [hobj]
      cases c <;> exact ⟨[], rfl, rfl⟩
    · rw [hp]
      cases c <;> rfl
  · simp at hs

theorem refines_access (hn : 0 < n) (h : Refines robustMacro s t)
    (hs : Lock.step robustMacro s (.access p) = some s') :
    ∃ t', exec (AtomicObject.step apply) t (label s (.access p)) = some t' ∧
      Refines robustMacro s' t' := by
  simp only [Lock.step] at hs
  split at hs
  · rename_i c x todo got hp
    obtain rfl := Option.some.inj hs
    obtain ⟨howner, hdoing⟩ := h.inside p c (x :: todo) got hp
    have halone := h.alone hp
    rcases c with ⟨status, msg⟩ | ⟨wantStatus, outMsg⟩
    · rcases todo with _ | ⟨y, todo⟩
      · -- the last store: the write takes effect
        have hinvoked : t.proc p = .invoked (.write status msg) := by simp [h.proc, hp, statusOf]
        simp only [label, hp]
        refine ⟨_, AtomicObject.exec_perform hinvoked, ?_⟩
        change Refines robustMacro _ ⟨_, Function.update t.proc p (statusOf
          (.critical (.write status msg) [] (x.perform s.shm got).2))⟩
        exact h.stay halone rfl howner rfl (hdoing.last_store hn)
      · simp only [label, hp]
        refine ⟨t, rfl, h.stay_silent halone rfl howner rfl hdoing.next ?_⟩
        rw [hp]
        rfl
    · simp only [label, hp]
      refine ⟨t, rfl, h.stay_silent halone rfl howner rfl hdoing.next ?_⟩
      rw [hp]
      rfl
  · simp at hs

theorem refines_unlock (hn : 0 < n) (h : Refines robustMacro s t)
    (hs : Lock.step robustMacro s (.unlock p) = some s') :
    ∃ t', exec (AtomicObject.step apply) t (label s (.unlock p)) = some t' ∧
      Refines robustMacro s' t' := by
  simp only [Lock.step] at hs
  split at hs
  · rename_i c got hp
    obtain rfl := Option.some.inj hs
    obtain ⟨howner, hdoing⟩ := h.inside p c [] got hp
    have hidle : ∀ c todo got, Phase.idle ≠ .critical c todo got := by simp
    rcases c with ⟨status, msg⟩ | ⟨wantStatus, outMsg⟩
    · have hperformed : t.proc p = .performed (.wrote true) := by simp [h.proc, hp, statusOf]
      simp only [label, hp]
      refine ⟨_, AtomicObject.exec_respond hperformed, ?_⟩
      exact h.leave (h.alone hp) hidle rfl rfl (hdoing.of_write (.inl rfl))
    · have hinvoked : t.proc p = .invoked (.read wantStatus outMsg) := by
        simp [h.proc, hp, statusOf]
      simp only [label, hp, ← hdoing.loaded hn]
      refine ⟨_, AtomicObject.exec_perform_respond hinvoked, ?_⟩
      exact h.leave (h.alone hp) hidle rfl rfl hdoing.of_read
  · simp at hs

theorem refines_die (h : Refines robustMacro s t) (hwhole : DiesWhole s (.die p))
    (hs : Lock.step robustMacro s (.die p) = some s') :
    ∃ t', exec (AtomicObject.step apply) t (label s (.die p)) = some t' ∧
      Refines robustMacro s' t' := by
  simp only [Lock.step] at hs
  split at hs
  · simp at hs
  · rename_i hp
    obtain rfl := Option.some.inj hs
    have hdead : ∀ c todo got, Phase.dead ≠ .critical c todo got := by simp
    have hcrashed : t.proc p ≠ .crashed := by
      rw [h.proc, Function.comp_apply]
      intro hc
      cases hph : s.phase p with
      | dead => simp [hph, Phase.isDead] at hp
      | critical c todo got => cases c <;> cases todo <;> simp [hph, statusOf] at hc
      | _ => simp [hph, statusOf] at hc
    refine ⟨_, AtomicObject.exec_crash hcrashed, ?_⟩
    by_cases hin : ∃ c todo got, s.phase p = .critical c todo got
    · obtain ⟨c, todo, got, hc⟩ := hin
      obtain ⟨-, hdoing⟩ := h.inside p c todo got hc
      refine h.leave (h.alone hc) hdead rfl rfl ?_
      cases c with
      | write status msg => exact hdoing.of_write (by simpa only [DiesWhole, hc] using hwhole)
      | read wantStatus outMsg => exact hdoing.of_read
    · exact h.outer (by simpa using hin) hdead

theorem step_refines (hn : 0 < n) (s : State P n) (a : Action P) (s' : State P n)
    (t : AtomicObject.State P (SharedData n) Call Returned) (h : Refines robustMacro s t)
    (hwhole : DiesWhole s a) (hs : Lock.step robustMacro s a = some s') :
    ∃ t', exec (AtomicObject.step apply) t (label s a) = some t' ∧ Refines robustMacro s' t' := by
  cases a with
  | call p c => exact refines_call h hs
  | lock p => exact refines_lock h hs
  | access p => exact refines_access hn h hs
  | unlock p => exact refines_unlock hn h hs
  | die p => exact refines_die h hwhole hs

/-- As long as no process dies halfway through its stores, the callers cannot tell the shared memory
from one on which every call happens at once, and between two calls the regions are the same. -/
theorem shm_linearizable (hn : 0 < n) (robustMacro : Bool) (shm : SharedData n)
    (as : List (Action P)) (s : State P n)
    (hwhole : Along (Lock.step robustMacro) DiesWhole (Lock.init robustMacro shm) as)
    (hrun : exec (Lock.step robustMacro) (Lock.init robustMacro shm) as = some s) :
    ∃ t, exec (AtomicObject.step apply) (AtomicObject.init shm)
        (trace (Lock.step robustMacro) label (Lock.init robustMacro shm) as) = some t ∧
      ((∀ p c todo got, s.phase p ≠ .critical c todo got) → t.obj = s.shm) := by
  obtain ⟨t, hlinear, hrel⟩ := refines (step_refines hn) (init_refines shm) hwhole hrun
  exact ⟨t, hlinear, hrel.outside⟩

instance (s : State P n) : DecidablePred (DiesWhole s)
  | .die p => match h : s.phase p with
    | .critical (.write status msg) todo _ =>
      decidable_of_iff (todo = [] ∨ todo.length = (accesses n (.write status msg)).length)
        (by simp [DiesWhole, h])
    | .critical (.read _ _) _ _ | .idle | .locking _ | .dead => .isTrue (by simp [DiesWhole, h])
  | .call .. | .lock _ | .access _ | .unlock _ => .isTrue trivial

/-- The writer dies with all its stores done and the lock in its hand, and the reader gets what it
wrote. -/
def killedWhole : List (Action Bool) :=
  [.call true Lock.writeHi, .lock true, .call false (.read true none), .access true, .access true,
    .access true, .access true, .die true, .lock false, .access false, .unlock false]

theorem killedWhole_linearizable :
    ∃ s : State Bool 1024, exec (Lock.step true) (Lock.init true (.zero 1024)) killedWhole =
      some s ∧
      trace (Lock.step true) label (Lock.init true (.zero 1024)) killedWhole =
        [.invoke true Lock.writeHi, .invoke false (.read true none), .perform true, .crash true,
          .perform false,
          .respond false (.read ⟨true, some 100, none⟩)] ∧
      ∃ t, exec (AtomicObject.step apply) (AtomicObject.init (.zero 1024))
          (trace (Lock.step true) label (Lock.init true (.zero 1024)) killedWhole) = some t ∧
        ((∀ p c todo got, s.phase p ≠ .critical c todo got) → t.obj = s.shm) :=
  ⟨_, rfl, rfl, shm_linearizable (by decide) true (.zero 1024) killedWhole _ (by decide) rfl⟩

end StudyC.Shm.Linear
