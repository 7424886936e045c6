import StudyC.Shm.Lock

/-!
# Reads after a writer has died

With the recovery in `safe_lock` compiled in, the next locker goes on after `EOWNERDEAD`, but
nothing repairs the region. The state of `Lock` is extended by what the write calls stand for and by
whether the last write stopped halfway.

* `step_inv`: a region that is not half written reads as the content of one call.
* `reads_atomic`: so does every read, as long as no read gets the lock over half a write.
-/

open CString Runs

namespace StudyC.Shm.Atomic

open Lock (Access Phase Action Loaded accesses performAll readResult)

variable {P : Type} [DecidableEq P] {n : Nat}

/-- What a reader can get: the status and the message as a string. -/
abbrev Content := Int32 × List UInt8

def content (shm : SharedData n) : Content :=
  (shm.statusCode, cstr (shm.message.toList.take (n - 1)))

structure State (P : Type) (n : Nat) where
  lock : Lock.State P n
  /-- The initial content, and the contents of the write calls so far. -/
  produced : List Content
  /-- The last store into the region was not the last one of its call. -/
  half : Bool

def producedAfter (s : State P n) : Action P → List Content
  | .call _ (.write status msg) => s.produced ++ [(status, msg.bytes.take (n - 1))]
  | _ => s.produced

def halfAfter (s : State P n) : Action P → Bool
  | .access p => match s.lock.phase p with
    | .critical (.write _ _) (_ :: todo) _ => !todo.isEmpty
    | _ => s.half
  | _ => s.half

def step (s : State P n) (a : Action P) : Option (State P n) :=
  (Lock.step true s.lock a).map fun lock => ⟨lock, producedAfter s a, halfAfter s a⟩

def init (shm : SharedData n) : State P n := ⟨Lock.init true shm, [content shm], false⟩

/-- What a read hands out comes from one content, the status and the message alike. -/
def Agrees (r : ReadResult) (c : Content) : Prop :=
  (∀ v ∈ r.status, v = c.1) ∧ ∀ buf ∈ r.msg, cstr buf.toList = c.2

/-- A read that returns, returns the content of one write call, or the initial one. -/
def ReadsOne (s : State P n) : Action P → Prop
  | .unlock p => match s.lock.phase p with
    | .critical (.read _ outMsg) [] got => ∃ c ∈ s.produced, Agrees (readResult n outMsg got) c
    | _ => True
  | _ => True

/-- No read gets the lock while the region is half written. -/
def LocksWhole (s : State P n) : Action P → Prop
  | .lock p => match s.lock.phase p with
    | .locking (.read _ _) => s.half = false
    | _ => True
  | _ => True

/-! ## Contents -/

theorem content_write (hn : 0 < n) (shm : SharedData n) (status : Int32) (msg : CStr) :
    content (shmApiWrite true shm status msg).2 = (status, msg.bytes.take (n - 1)) := by
  have hholds := write_holds hn shm status msg
  rw [content, cstr_take, hholds, List.take_take, Nat.min_self]
  rfl

theorem read_agrees (hn : 0 < n) (hsize : n ≤ maxPayloadSize) (shm : SharedData n)
    (wantStatus : Bool) (outMsg : Option (Vector UInt8 maxPayloadSize)) :
    Agrees (shmApiRead true shm wantStatus outMsg) (content shm) := by
  constructor
  · intro v hv
    rw [read_status] at hv
    split at hv
    · exact (Option.some.inj hv).symm
    · simp at hv
  · intro buf hbuf
    rcases outMsg with _ | out
    · simp [shmApiRead] at hbuf
    · simp only [shmApiRead, show ¬ n < 1 by omega, if_false, Bool.not_true, Bool.false_eq_true,
        Option.mem_def, Option.some.injEq] at hbuf
      rw [← hbuf, cstr_snprintf _ _ hn hsize (cstr_nonul _), content, cstr_take, List.take_take,
        Nat.min_self]

theorem perform_read {wantStatus : Bool} {outMsg : Option (Vector UInt8 maxPayloadSize)}
    {x : Access} (hx : x ∈ accesses n (.read wantStatus outMsg)) (shm : SharedData n)
    (got : Loaded) : (x.perform shm got).1 = shm := by
  simp only [accesses, List.mem_append] at hx
  rcases hx with hx | hx
  · split at hx
    · obtain rfl := List.mem_singleton.mp hx
      rfl
    · simp at hx
  · split at hx
    · obtain ⟨i, -, rfl⟩ := List.mem_map.mp hx
      rfl
    · simp at hx

theorem performAll_snoc (pre : List Access) (x : Access) (start : SharedData n) (got : Loaded) :
    performAll (pre ++ [x]) start got =
      x.perform (performAll pre start got).1 (performAll pre start got).2 := by
  simp [performAll]

/-! ## The invariant -/

def callOf : Phase → Option Call
  | .locking c | .critical c _ _ => some c
  | .idle | .dead => none

/-- The process owns the mutex and has done the accesses before `todo`, alone since it got the lock.
-/
structure Running (s : State P n) (p : P) (c : Call) (todo : List Access) (got : Loaded) :
    Prop where
  owner : s.lock.mutex.owner = some p
  done : ∃ start pre, accesses n c = pre ++ todo ∧ performAll pre start ⟨none, []⟩ =
    (s.lock.shm, got)
  whole : ∀ wantStatus outMsg, c = .read wantStatus outMsg → s.half = false

structure Inv (s : State P n) : Prop where
  running : ∀ p c todo got, s.lock.phase p = .critical c todo got → Running s p c todo got
  called : ∀ p status msg, callOf (s.lock.phase p) = some (.write status msg) →
    (status, msg.bytes.take (n - 1)) ∈ s.produced
  content : s.half = false → content s.lock.shm ∈ s.produced

omit [DecidableEq P] in
theorem init_inv (shm : SharedData n) : Inv (init shm : State P n) := by
  refine ⟨?_, ?_, ?_⟩
  · intro p c todo got hp
    simp [init, Lock.init] at hp
  · intro p status msg hp
    simp [init, Lock.init, callOf] at hp
  · intro _
    simp [init, Lock.init]

omit [DecidableEq P] in
theorem Inv.unique {s : State P n} (h : Inv s) {p q : P} {c c' : Call} {todo todo' : List Access}
    {got got' : Loaded} (hp : s.lock.phase p = .critical c todo got)
    (hq : s.lock.phase q = .critical c' todo' got') : q = p :=
  Option.some.inj
    ((h.running q c' todo' got' hq).owner.symm.trans (h.running p c todo got hp).owner)

omit [DecidableEq P] in
theorem Inv.outside {s : State P n} (h : Inv s) {ret : Lock.LockResult}
    (hlock : Lock.pthreadMutexLock s.lock.phase s.lock.mutex = some ret) (q : P) (c : Call)
    (todo : List Access) (got : Loaded) : s.lock.phase q ≠ .critical c todo got := by
  -- the lock is granted when nobody is inside: the owner, if there is one, is dead
  intro hq
  simp [Lock.pthreadMutexLock, (h.running q c todo got hq).owner, hq, Phase.isDead] at hlock

theorem Inv.called_setPhase {s : State P n} (h : Inv s) (p : P) (ph : Phase)
    {produced : List Content} (hmono : ∀ c ∈ s.produced, c ∈ produced)
    (hph : ∀ status msg, callOf ph = some (.write status msg) → (status, msg.bytes.take (n - 1)) ∈
      produced)
    (q : P) (status : Int32) (msg : CStr)
    (hq : callOf (Function.update s.lock.phase p ph q) = some (.write status msg)) :
    (status, msg.bytes.take (n - 1)) ∈ produced := by
  rw [Function.update_apply] at hq
  split at hq
  · exact hph status msg hq
  · exact hmono _ (h.called q status msg hq)

theorem step_inv_call (s : State P n) (p : P) (c : Call) (s' : State P n) (h : Inv s)
    (hs : step s (.call p c) = some s') : Inv s' := by
  obtain ⟨lock, hlock, rfl⟩ := Option.map_eq_some_iff.mp hs
  simp only [Lock.step] at hlock
  split at hlock
  · obtain rfl := Option.some.inj hlock
    have hmono : ∀ c' ∈ s.produced, c' ∈ producedAfter s (.call p c) := by
      intro c' hc'
      cases c with
      | write status msg => exact List.mem_append_left _ hc'
      | read wantStatus outMsg => exact hc'
    refine ⟨?_, h.called_setPhase p _ hmono ?_, fun hhalf => hmono _ (h.content hhalf)⟩
    · intro q c' todo got hq
      simp only [Lock.State.setPhase, Function.update_apply] at hq
      split at hq
      · simp at hq
      · obtain ⟨howner, hdone, hwhole⟩ := h.running q c' todo got hq
        exact ⟨howner, hdone, hwhole⟩
    · intro status msg hcall
      obtain rfl := Option.some.inj hcall
      simp [producedAfter]
  · simp at hlock

theorem step_inv_lock (s : State P n) (p : P) (s' : State P n) (h : Inv s)
    (hwhole : LocksWhole s (.lock p)) (hs : step s (.lock p) = some s') : Inv s' := by
  obtain ⟨lock, hlock, rfl⟩ := Option.map_eq_some_iff.mp hs
  simp only [Lock.step] at hlock
  split at hlock
  · rename_i c hp
    obtain ⟨ret, hret, rfl⟩ := Option.map_eq_some_iff.mp hlock
    have hsafe : Lock.safeLock true ret = true := by
      cases ret <;> rfl
    rw [if_pos hsafe]
    refine ⟨?_, h.called_setPhase p _ (fun _ hc => hc) ?_, h.content⟩
    · intro q c' todo got hq
      simp only [Lock.State.setPhase, Function.update_apply] at hq
      split at hq
      · rename_i hqp
        injection hq with hc htodo hgot
        subst hqp hc htodo hgot
        refine ⟨rfl, ⟨s.lock.shm, [], rfl, rfl⟩, ?_⟩
        rintro wantStatus outMsg rfl
        simpa [LocksWhole, halfAfter, hp] using hwhole
      · exact absurd hq (h.outside hret q c' todo got)
    · intro status msg hcall
      exact h.called p status msg (by rw [hp]; exact hcall)
  · simp at hlock

omit [DecidableEq P] in
theorem content_after_store (hn : 0 < n) {s : State P n} {p : P} {status : Int32} {msg : CStr}
    {x : Access} {got : Loaded} (h : Running s p (.write status msg) [x] got) :
    content (x.perform s.lock.shm got).1 = (status, msg.bytes.take (n - 1)) := by
  obtain ⟨start, pre, hsplit, hdone⟩ := h.done
  have hlast := performAll_snoc pre x start ⟨none, []⟩
  rw [← hsplit, Lock.performAll_write hn, hdone] at hlast
  rw [← hlast, content_write hn]

theorem step_inv_access (hn : 0 < n) (s : State P n) (p : P) (s' : State P n) (h : Inv s)
    (hs : step s (.access p) = some s') : Inv s' := by
  obtain ⟨lock, hlock, rfl⟩ := Option.map_eq_some_iff.mp hs
  simp only [Lock.step] at hlock
  split at hlock
  · rename_i c x todo got hp
    obtain rfl := Option.some.inj hlock
    have hrun := h.running p c (x :: todo) got hp
    obtain ⟨start, pre, hsplit, hdone⟩ := hrun.done
    refine ⟨?_, h.called_setPhase p _ (fun _ hc => hc) ?_, ?_⟩
    · intro q c' todo' got' hq
      simp only [Lock.State.setPhase, Function.update_apply] at hq
      split at hq
      · rename_i hqp
        injection hq with hc htodo hgot
        subst hqp hc htodo hgot
        refine ⟨hrun.owner, ⟨start, pre ++ [x], by simp [hsplit], ?_⟩, ?_⟩
        · rw [performAll_snoc, hdone]
          rfl
        · rintro wantStatus outMsg rfl
          simpa [halfAfter, hp] using hrun.whole wantStatus outMsg rfl
      · rename_i hqp
        exact absurd (h.unique hp hq) hqp
    · intro status msg hcall
      exact h.called p status msg (by rw [hp]; exact hcall)
    · intro hhalf
      cases c with
      | write status msg =>
        simp only [halfAfter, hp, Bool.not_eq_false', List.isEmpty_iff] at hhalf
        subst hhalf
        have hcalled := h.called p status msg (by rw [hp]; rfl)
        rwa [← content_after_store hn hrun] at hcalled
      | read wantStatus outMsg =>
        have hx : x ∈ accesses n (.read wantStatus outMsg) := by simp [hsplit]
        have hcontent := h.content (hrun.whole wantStatus outMsg rfl)
        rwa [← perform_read hx s.lock.shm got] at hcontent
  · simp at hlock

theorem step_inv_unlock (s : State P n) (p : P) (s' : State P n) (h : Inv s)
    (hs : step s (.unlock p) = some s') : Inv s' := by
  obtain ⟨lock, hlock, rfl⟩ := Option.map_eq_some_iff.mp hs
  simp only [Lock.step] at hlock
  split at hlock
  · rename_i c got hp
    obtain rfl := Option.some.inj hlock
    refine ⟨?_, h.called_setPhase p _ (fun _ hc => hc) (by simp [callOf]), h.content⟩
    · intro q c' todo' got' hq
      simp only [Lock.State.setPhase, Function.update_apply] at hq
      split at hq
      · simp at hq
      · rename_i hqp
        exact absurd (h.unique hp hq) hqp
  · simp at hlock

theorem step_inv_die (s : State P n) (p : P) (s' : State P n) (h : Inv s)
    (hs : step s (.die p) = some s') : Inv s' := by
  obtain ⟨lock, hlock, rfl⟩ := Option.map_eq_some_iff.mp hs
  simp only [Lock.step] at hlock
  split at hlock
  · simp at hlock
  · obtain rfl := Option.some.inj hlock
    refine ⟨?_, h.called_setPhase p _ (fun _ hc => hc) (by simp [callOf]), h.content⟩
    · intro q c' todo got hq
      simp only [Lock.State.setPhase, Function.update_apply] at hq
      split at hq
      · simp at hq
      · obtain ⟨howner, hdone, hwhole⟩ := h.running q c' todo got hq
        exact ⟨howner, hdone, hwhole⟩

theorem step_inv (hn : 0 < n) (s : State P n) (a : Action P) (s' : State P n) (h : Inv s)
    (hwhole : LocksWhole s a) (hs : step s a = some s') : Inv s' := by
  cases a with
  | call p c => exact step_inv_call s p c s' h hs
  | lock p => exact step_inv_lock s p s' h hwhole hs
  | access p => exact step_inv_access hn s p s' h hs
  | unlock p => exact step_inv_unlock s p s' h hs
  | die p => exact step_inv_die s p s' h hs

/-! ## Every read -/

omit [DecidableEq P] in
theorem readsOne_of_inv (hn : 0 < n) (hsize : n ≤ maxPayloadSize) (s : State P n) (a : Action P)
    (h : Inv s) : ReadsOne s a := by
  cases a with
  | unlock p =>
    simp only [ReadsOne]
    split
    · rename_i wantStatus outMsg got hp
      have hrun := h.running p _ _ _ hp
      obtain ⟨start, pre, hsplit, hdone⟩ := hrun.done
      obtain ⟨got', hread, hresult⟩ := Lock.performAll_read hn start wantStatus outMsg
      rw [hsplit, List.append_nil, hdone, Prod.mk.injEq] at hread
      obtain ⟨rfl, rfl⟩ := hread
      refine ⟨_, h.content (hrun.whole wantStatus outMsg rfl), ?_⟩
      rw [hresult]
      exact read_agrees hn hsize _ _ _
    · trivial
  | _ => trivial

/-- Processes may die at any point: every read returns one content, as long as no read gets the lock
over half a write. -/
theorem reads_atomic (hn : 0 < n) (hsize : n ≤ maxPayloadSize) (shm : SharedData n)
    (as : List (Action P)) (hwhole : Along step LocksWhole (init shm) as) :
    Along step ReadsOne (init shm) as :=
  hwhole.mono (step_inv hn) (fun s a h _ => readsOne_of_inv hn hsize s a h) (init_inv shm)

instance (s : State P n) : DecidablePred (LocksWhole s)
  | .lock p => match h : s.lock.phase p with
    | .locking (.read _ _) => decidable_of_iff (s.half = false) (by simp [LocksWhole, h])
    | .locking (.write _ _) | .idle | .critical .. | .dead => .isTrue (by simp [LocksWhole, h])
  | .call .. | .access _ | .unlock _ | .die _ => .isTrue trivial

/-- Process 0 dies halfway; process 1 recovers the lock with a write of its own before process 2
reads. -/
def overwritten : List (Action Nat) :=
  [.call 0 Lock.writeHi, .lock 0, .access 0, .die 0,
    .call 1 (.write 7 (.lit "")), .lock 1, .access 1, .access 1, .unlock 1,
    .call 2 (.read true none), .lock 2, .access 2, .unlock 2]

theorem overwritten_reads_one : Along step ReadsOne (init (.zero 1024)) overwritten :=
  reads_atomic (by decide) (by decide) (.zero 1024) overwritten (by decide)

/-! ## A torn read -/

theorem exec_loads {wantStatus : Bool} {outMsg : Option (Vector UInt8 maxPayloadSize)} {p : P}
    (todo : List Access) (s : State P n) (got : Loaded)
    (hp : s.lock.phase p = .critical (.read wantStatus outMsg) todo got) :
    ∃ s', exec step s (List.replicate todo.length (.access p)) = some s' ∧
      s'.produced = s.produced ∧
      s'.lock.phase p = .critical (.read wantStatus outMsg) []
        (performAll todo s.lock.shm got).2 := by
  induction todo generalizing s got with
  | nil => exact ⟨s, rfl, rfl, hp⟩
  | cons x todo ih =>
    set o := x.perform s.lock.shm got with ho
    set next : State P n :=
        ⟨{ s.lock with shm := o.1 }.setPhase p (.critical (.read wantStatus outMsg) todo o.2),
      s.produced, s.half⟩ with hnext
    have hstep : step s (.access p) = some next := by
      simp [step, Lock.step, hp, producedAfter, halfAfter, hnext, ho]
    obtain ⟨s', hrun, hproduced, hphase⟩ := ih next o.2 (by simp [hnext, Lock.State.setPhase])
    refine ⟨s', ?_, hproduced, ?_⟩
    · rw [List.length_cons, List.replicate_succ, exec, hstep]
      exact hrun
    · simpa [performAll, hnext, Lock.State.setPhase, ho] using hphase

/-- The writer `true` is killed after its first store, and the reader `false` recovers the lock. -/
def killedHalfway (buf : Vector UInt8 maxPayloadSize) : List (Action Bool) :=
  [.call true (.write 7 (.lit "up")), .lock true, .access true, .die true,
    .call false (.read true (some buf)), .lock false]

/-- The region with the new status and the old message. -/
def tornRegion (n : Nat) : SharedData n := { SharedData.zero n with statusCode := 7 }

theorem content_tornRegion (hn : 0 < n) : content (tornRegion n) = (7, []) := by
  have hholds : cstr (tornRegion n).message.toList = ([] : List UInt8).take (n - 1) := holds_zero hn
  rw [content, cstr_take, hholds]
  simp [tornRegion]

theorem exec_killedHalfway (buf : Vector UInt8 maxPayloadSize) :
    ∃ s : State Bool n, exec step (init (.zero n)) (killedHalfway buf) = some s ∧
      s.lock.phase false = .critical (.read true (some buf))
        (accesses n (.read true (some buf))) ⟨none, []⟩ ∧
      s.lock.shm = tornRegion n ∧
      s.produced = [content (.zero n), (7, (CStr.lit "up").bytes.take (n - 1))] :=
  ⟨_, rfl, rfl, rfl, rfl⟩

theorem read_tornRegion (hn : 1 < n) (hsize : n ≤ maxPayloadSize)
    (buf : Vector UInt8 maxPayloadSize) {c : Content}
    (hc : c ∈ [content (.zero n), (7, (CStr.lit "up").bytes.take (n - 1))]) :
    ¬ Agrees (shmApiRead true (tornRegion n) true (some buf)) c := by
  -- the status of the dead call with the message from before it is the content of no call
  rintro ⟨hstatus, hmsg⟩
  have htext := (read_agrees (by omega) hsize (tornRegion n) true (some buf)).2
  have hread := read_status (tornRegion n) true (some buf)
  obtain ⟨out, hout⟩ : ∃ out, (shmApiRead true (tornRegion n) true (some buf)).msg = some out := by
    simp [shmApiRead, show ¬ n < 1 by omega]
  have hempty : c.2 = [] := by
    rw [← hmsg out hout, htext out hout, content_tornRegion (by omega)]
  have hseven : (7 : Int32) = c.1 := hstatus 7 hread
  rcases List.mem_cons.mp hc with rfl | hc
  · simp [content, SharedData.zero] at hseven
  · obtain rfl := List.mem_singleton.mp hc
    obtain ⟨k, rfl⟩ : ∃ k, n = k + 2 := ⟨n - 2, by omega⟩
    simp [CStr.lit, ascii] at hempty

theorem length_accesses_read (hn : 0 < n) (buf : Vector UInt8 maxPayloadSize) :
    (accesses n (.read true (some buf))).length = n := by
  simp [accesses]
  omega

theorem exec_torn_read (hn : 1 < n) (hsize : n ≤ maxPayloadSize)
    (buf : Vector UInt8 maxPayloadSize) :
    ∃ s : State Bool n,
      exec step (init (.zero n)) (killedHalfway buf ++ List.replicate n (.access false)) = some s ∧
        ¬ ReadsOne s (.unlock false) := by
  obtain ⟨mid, hmid, hphase, hshm, hproduced⟩ := exec_killedHalfway (n := n) buf
  obtain ⟨s, hrun, hsame, hdone⟩ := exec_loads _ mid _ hphase
  obtain ⟨got, hgot, hresult⟩ := Lock.performAll_read (by omega) (tornRegion n) true (some buf)
  rw [length_accesses_read (by omega)] at hrun
  rw [hshm, hgot] at hdone
  refine ⟨s, by rw [exec_append, hmid]; exact hrun, ?_⟩
  simp only [ReadsOne, hdone, hsame, hproduced, hresult]
  rintro ⟨c, hc, hagrees⟩
  exact read_tornRegion hn hsize buf hc hagrees

/-- In the System V region, the reader that recovers the lock gets the status of the dead call with
the message from before it. -/
theorem recovered_read_torn :
    ∃ s : State Bool maxPayloadSize,
      exec step (init (.zero maxPayloadSize))
        (killedHalfway (.replicate _ 0) ++ List.replicate maxPayloadSize (.access false)) = some s ∧
        ¬ ReadsOne s (.unlock false) :=
  exec_torn_read (by decide) le_rfl (.replicate _ 0)

end StudyC.Shm.Atomic
