import Mathlib.Logic.Function.Basic
import StudyC.Shm.Api

/-!
# The shared mutex and processes that die

Processes call `shm_api_write` and `shm_api_read` and may die between any two of their steps, also
between two accesses inside the lock. `PTHREAD_MUTEX_ROBUST` guards both the attribute of the mutex
and the recovery in `safe_lock`. Whether it is a macro is the parameter `robustMacro`; with glibc it
is an enumerator, and both guarded parts are left out.
-/

open CString Runs

namespace StudyC.Shm.Lock

variable {P : Type} [DecidableEq P] {n : Nat}

inductive Access where
  | storeStatus (v : Int32)
  | storeByte (i : Nat) (b : UInt8)
  | loadStatus
  | loadByte (i : Nat)

/-- The `snprintf` of a write, byte by byte from `i` on. -/
def storeBytes (i : Nat) : List UInt8 → List Access
  | [] => []
  | b :: l => .storeByte i b :: storeBytes (i + 1) l

/-- The accesses of a call, in order. A read loads the bytes behind the NUL too, and drops them. -/
def accesses (n : Nat) : Call → List Access
  | .write status msg => .storeStatus status :: storeBytes 0 (msg.bytes.take (n - 1) ++ [0])
  | .read wantStatus outMsg =>
    (if wantStatus then [.loadStatus] else []) ++
      (if outMsg.isSome then (List.range (n - 1)).map .loadByte else [])

structure Loaded where
  status : Option Int32
  bytes : List UInt8

def Access.perform (x : Access) (shm : SharedData n) (got : Loaded) : SharedData n × Loaded :=
  match x with
  | .storeStatus v => ({ shm with statusCode := v }, got)
  | .storeByte i b => (if h : i < n then { shm with message := shm.message.set i b } else shm, got)
  | .loadStatus => (shm, { got with status := some shm.statusCode })
  | .loadByte i => (shm, { got with bytes := got.bytes ++ shm.message[i]?.toList })

inductive Phase where
  | idle
  /-- In `pthread_mutex_lock`, called by `safe_lock`. -/
  | locking (call : Call)
  | critical (call : Call) (todo : List Access) (got : Loaded)
  | dead

def Phase.isDead : Phase → Bool
  | .dead => true
  | _ => false

structure Mutex (P : Type) where
  owner : Option P
  robust : Bool

structure State (P : Type) (n : Nat) where
  phase : P → Phase
  mutex : Mutex P
  shm : SharedData n

def State.setPhase (s : State P n) (p : P) (ph : Phase) : State P n :=
  { s with phase := Function.update s.phase p ph }

def State.setOwner (s : State P n) (o : Option P) : State P n :=
  { s with mutex := { s.mutex with owner := o } }

inductive LockResult where
  | ok
  | ownerDead

/-- `none` while the call does not return: a mutex that is not robust stays with its dead owner. -/
def pthreadMutexLock (phase : P → Phase) (m : Mutex P) : Option LockResult :=
  match m.owner with
  | none => some .ok
  | some q => if (phase q).isDead && m.robust then some .ownerDead else none

/-- Without the guarded branch `EOWNERDEAD` is a failure like any other. -/
def safeLock (robustMacro : Bool) : LockResult → Bool
  | .ok => true
  | .ownerDead => robustMacro

def shmApiInit (robustMacro : Bool) : Mutex P := ⟨none, robustMacro⟩

inductive Action (P : Type) where
  | call (p : P) (call : Call)
  | lock (p : P)
  | access (p : P)
  | unlock (p : P)
  | die (p : P)

def step (robustMacro : Bool) (s : State P n) : Action P → Option (State P n)
  | .call p c => match s.phase p with
    | .idle => some (s.setPhase p (.locking c))
    | _ => none
  | .lock p => match s.phase p with
    | .locking c => (pthreadMutexLock s.phase s.mutex).map fun ret =>
        -- after `EOWNERDEAD` the caller owns the mutex, also where `safe_lock` reports a failure
        (s.setOwner (some p)).setPhase p
          (if safeLock robustMacro ret then .critical c (accesses n c) ⟨none, []⟩ else .idle)
    | _ => none
  | .access p => match s.phase p with
    | .critical c (x :: todo) got =>
      let o := x.perform s.shm got
      some ({ s with shm := o.1 }.setPhase p (.critical c todo o.2))
    | _ => none
  | .unlock p => match s.phase p with
    | .critical _ [] _ => some ((s.setOwner none).setPhase p .idle)
    | _ => none
  | .die p => if (s.phase p).isDead then none else some (s.setPhase p .dead)

def init (robustMacro : Bool) (shm : SharedData n) : State P n :=
  ⟨fun _ => .idle, shmApiInit robustMacro, shm⟩

/-! ## A call that is alone -/

def performAll (xs : List Access) (shm : SharedData n) (got : Loaded) : SharedData n × Loaded :=
  xs.foldl (fun o x => x.perform o.1 o.2) (shm, got)

theorem performAll_storeBytes (l : List UInt8) (i : Nat) (hl : i + l.length ≤ n)
    (shm : SharedData n) (got : Loaded) :
    ∃ message : Vector UInt8 n,
      performAll (storeBytes i l) shm got = ({ shm with message := message }, got) ∧
        message.toList = shm.message.toList.take i ++ l ++
          shm.message.toList.drop (i + l.length) := by
  induction l generalizing i shm with
  | nil => exact ⟨shm.message, rfl, by simp⟩
  | cons b l ih =>
    rw [List.length_cons] at hl
    have hi : i < n := by omega
    obtain ⟨message, hrun, hmessage⟩ :=
      ih (i + 1) (by omega) { shm with message := shm.message.set i b }
    refine ⟨message, ?_, ?_⟩
    · rw [← hrun]
      simp [performAll, storeBytes, Access.perform, hi]
    · rw [hmessage, Vector.toList_set, List.take_set, List.drop_set_of_lt (by omega)]
      have hlen : i < shm.message.toList.length := by simpa using hi
      rw [List.take_succ_eq_append_getElem hlen,
        List.set_append_right _ _ (List.length_take_le _ _)]
      simp [show min i n = i by omega, Nat.add_comm, Nat.add_left_comm]

theorem performAll_write (hn : 0 < n) (shm : SharedData n) (got : Loaded) (status : Int32)
    (msg : CStr) :
    performAll (accesses n (.write status msg)) shm got =
      ((shmApiWrite true shm status msg).2, got) := by
  have hlen : 0 + (msg.bytes.take (n - 1) ++ [0]).length ≤ n := by
    simp; omega
  obtain ⟨message, hrun, hmessage⟩ :=
    performAll_storeBytes _ 0 hlen { shm with statusCode := status } got
  have hsame : message = snprintf shm.message n msg.bytes := by
    rw [← Vector.toList_inj, hmessage, snprintf_toList _ _ hn le_rfl]
    simp [Nat.min_comm]
  rw [hsame] at hrun
  exact hrun

theorem performAll_loadBytes (is : List Nat) (shm : SharedData n) (got : Loaded) :
    performAll (is.map .loadByte) shm got =
      (shm, { got with bytes := got.bytes ++ is.flatMap fun i => shm.message[i]?.toList }) := by
  induction is generalizing got with
  | nil => simp [performAll]
  | cons i is ih =>
    have := ih { got with bytes := got.bytes ++ shm.message[i]?.toList }
    simpa [performAll, Access.perform] using this

def readResult (n : Nat) (outMsg : Option (Vector UInt8 maxPayloadSize)) (got : Loaded) :
    ReadResult :=
  ⟨true, got.status, outMsg.map fun buf => snprintf buf n (cstr got.bytes)⟩

theorem range_flatMap_message (k : Nat) (v : Vector UInt8 n) :
    ((List.range k).flatMap fun i => v[i]?.toList) = v.toList.take k := by
  induction k with
  | zero => rfl
  | succ k ih =>
    rw [List.range_succ, List.flatMap_append, ih, List.take_add_one]
    simp

theorem performAll_read (hn : 0 < n) (shm : SharedData n) (wantStatus : Bool)
    (outMsg : Option (Vector UInt8 maxPayloadSize)) :
    ∃ got, performAll (accesses n (.read wantStatus outMsg)) shm ⟨none, []⟩ = (shm, got) ∧
      readResult n outMsg got = shmApiRead true shm wantStatus outMsg := by
  have hstatus : performAll (if wantStatus then [.loadStatus] else []) shm ⟨none, []⟩ =
      (shm, ⟨if wantStatus then some shm.statusCode else none, []⟩) := by
    cases wantStatus <;> rfl
  rcases outMsg with _ | buf
  · refine ⟨_, by simpa [accesses] using hstatus, ?_⟩
    simp [readResult, shmApiRead]
  · refine ⟨⟨if wantStatus then some shm.statusCode else none, shm.message.toList.take (n - 1)⟩, ?_,
      ?_⟩
    · have happend : ∀ xs ys : List Access, ∀ got, performAll (xs ++ ys) shm got =
          performAll ys (performAll xs shm got).1 (performAll xs shm got).2 := by
        intro xs ys got
        simp [performAll, List.foldl_append]
      rw [accesses, happend, hstatus]
      simp [performAll_loadBytes, range_flatMap_message]
    · simp [readResult, shmApiRead, show ¬ n < 1 by omega]

/-! ## Owner death -/

/-- The process is in `safe_lock`, the owner of the mutex is dead, and the lock is not granted. -/
def WaitsForDead (robustMacro : Bool) (s : State P n) (p : P) : Prop :=
  ∃ c q, s.phase p = .locking c ∧ s.mutex.owner = some q ∧ (s.phase q).isDead = true ∧
    (step robustMacro s (.lock p)).isNone = true

/-- Without the macro, a process that dies does not hold the mutex. -/
def DiesOutside (robustMacro : Bool) (s : State P n) : Action P → Prop
  | .die p => robustMacro = true ∨ s.mutex.owner ≠ some p
  | _ => True

structure Inv (robustMacro : Bool) (s : State P n) : Prop where
  robust : s.mutex.robust = robustMacro
  ownerAlive : robustMacro = true ∨ ∀ q, s.mutex.owner = some q → (s.phase q).isDead = false

theorem Inv.setPhase {robustMacro : Bool} {s : State P n} (h : Inv robustMacro s) (p : P)
    {ph : Phase} (hph : ph.isDead = false) : Inv robustMacro (s.setPhase p ph) := by
  refine ⟨h.robust, h.ownerAlive.imp_right fun halive q hq => ?_⟩
  simp only [State.setPhase, Function.update_apply]
  split
  · exact hph
  · exact halive q hq

omit [DecidableEq P] in
theorem Inv.setOwner {robustMacro : Bool} {s : State P n} (h : Inv robustMacro s) {o : Option P}
    (ho : ∀ q, o = some q → (s.phase q).isDead = false) : Inv robustMacro (s.setOwner o) :=
  ⟨h.robust, .inr ho⟩

omit [DecidableEq P] in
theorem Inv.setShm {robustMacro : Bool} {s : State P n} (h : Inv robustMacro s)
    (shm : SharedData n) : Inv robustMacro { s with shm := shm } :=
  ⟨h.robust, h.ownerAlive⟩

theorem step_inv (robustMacro : Bool) (s : State P n) (a : Action P) (s' : State P n)
    (h : Inv robustMacro s) (hdie : DiesOutside robustMacro s a)
    (hs : step robustMacro s a = some s') : Inv robustMacro s' := by
  cases a with
  | call p c =>
    simp only [step] at hs
    split at hs
    · obtain rfl := Option.some.inj hs
      exact h.setPhase p rfl
    · simp at hs
  | lock p =>
    simp only [step] at hs
    split at hs
    · rename_i c hp
      obtain ⟨ret, -, rfl⟩ := Option.map_eq_some_iff.mp hs
      have howner : ∀ q, some p = some q → (s.phase q).isDead = false := by
        rintro q ⟨⟩
        rw [hp]
        rfl
      refine (h.setOwner howner).setPhase p ?_
      split <;> rfl
    · simp at hs
  | access p =>
    simp only [step] at hs
    split at hs
    · obtain rfl := Option.some.inj hs
      exact (h.setShm _).setPhase p rfl
    · simp at hs
  | unlock p =>
    simp only [step] at hs
    split at hs
    · obtain rfl := Option.some.inj hs
      exact (h.setOwner (by rintro q ⟨⟩)).setPhase p rfl
    · simp at hs
  | die p =>
    simp only [step] at hs
    split at hs
    · simp at hs
    · obtain rfl := Option.some.inj hs
      refine ⟨h.robust, ?_⟩
      rcases hdie with hmacro | hp
      · exact .inl hmacro
      · refine h.ownerAlive.imp_right fun halive q hq => ?_
        have hne : q ≠ p := by
          rintro rfl
          exact hp hq
        simpa only [State.setPhase, Function.update_apply, if_neg hne] using halive q hq

/-- A dead owner keeps no survivor waiting, as long as no process dies in its critical section where
the mutex is not robust. -/
theorem survivors_never_wait (robustMacro : Bool) (shm : SharedData n) (as : List (Action P))
    (s : State P n)
    (hdie : Along (step robustMacro) (DiesOutside robustMacro) (init robustMacro shm) as)
    (hrun : exec (step robustMacro) (init robustMacro shm) as = some s) (p : P) :
    ¬ WaitsForDead robustMacro s p := by
  have hinv : Inv robustMacro s :=
    invariant (step_inv robustMacro) ⟨rfl, .inr (by rintro q ⟨⟩)⟩ hdie hrun
  rintro ⟨c, q, hp, howner, hdead, hwait⟩
  rcases hinv.ownerAlive with hmacro | halive
  · -- the robust mutex answers `EOWNERDEAD`, and the step is enabled
    simp [step, hp, pthreadMutexLock, howner, hdead, hinv.robust, hmacro] at hwait
  · rw [halive q howner] at hdead
    simp at hdead

def writeHi : Call := .write 100 (.lit "hi")

/-- With glibc: the writer `true` is killed after its first store, and the reader `false` waits. -/
theorem killed_writer_blocks_reader :
    ∃ s : State Bool 1024,
      exec (step false) (init false (.zero 1024))
        [.call true writeHi, .lock true, .access true, .die true, .call false (.read true none)] =
          some s ∧
      WaitsForDead false s false :=
  ⟨_, rfl, .read true none, true, rfl, rfl, rfl, rfl⟩

instance (robustMacro : Bool) (s : State P n) : DecidablePred (DiesOutside robustMacro s)
  | .die p => inferInstanceAs (Decidable (robustMacro = true ∨ s.mutex.owner ≠ some p))
  | .call .. | .lock _ | .access _ | .unlock _ => .isTrue trivial

/-- The writer is killed while it waits for the lock that the reader holds. -/
def killedOutside : List (Action Bool) :=
  [.call false (.read true none), .lock false, .call true writeHi, .die true, .access false]

theorem killedOutside_keeps_nobody_waiting :
    ∃ s : State Bool 1024, exec (step false) (init false (.zero 1024)) killedOutside = some s ∧
      ∀ p, ¬ WaitsForDead false s p :=
  ⟨_, rfl, survivors_never_wait false (.zero 1024) killedOutside _
    (by decide) rfl⟩

end StudyC.Shm.Lock
