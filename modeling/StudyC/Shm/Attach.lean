import Mathlib.Logic.Function.Basic
import StudyC.Lib.Runs

/-!
# Creating the shared memory and attaching to it

`shm_api_init`, `shm_api_close` and `shm_api_destroy` of both back ends, called by any number of
processes in any order. The one that creates the object initialises the mutex, the others attach to
what is there. Processes die at any point, and system calls fail.

`malloc` is left out: when it fails, `shm_api_init` returns before it has done anything.
-/

open Runs

namespace StudyC.Shm.Attach

inductive Backend where
  | sysv
  | posix
  deriving DecidableEq

structure Object where
  /-- It has the size of `SharedData`. -/
  sized : Bool
  /-- The calls of `pthread_mutex_init` on its mutex. -/
  inits : Nat

/-- The objects of the kernel. Those below `next` have been created, and `SHM_KEY` or `SHM_NAME`
leads to at most one of them. -/
structure World where
  objects : Nat → Object
  name : Option Nat
  next : Nat

/-- Where a process is. Up to `sleep` it is inside `shm_api_init`. -/
inductive Phase where
  | idle
  /-- At the exclusive `shmget` or `shm_open`. -/
  | create
  /-- At the second one, after `EEXIST`. -/
  | attach
  | truncate (o : Nat)
  /-- `ftruncate` has failed; at `shm_unlink`. -/
  | unlinkShort (o : Nat)
  /-- In the loop that waits for the size. -/
  | stat (o : Nat)
  /-- At `shmat` or `mmap`. -/
  | map (o : Nat) (isCreator : Bool)
  | initMutex (o : Nat)
  /-- In `usleep(10000)`. -/
  | sleep (o : Nat)
  /-- Holds a handle. -/
  | ready (o : Nat) (isCreator : Bool)
  /-- In `shm_api_destroy`, at `IPC_RMID` or `shm_unlink`. -/
  | remove (o : Nat)
  | dead
  deriving DecidableEq

def World.create (w : World) (sized : Bool) : World where
  objects := Function.update w.objects w.next ⟨sized, 0⟩
  name := some w.next
  next := w.next + 1

def World.modify (w : World) (o : Nat) (f : Object → Object) : World :=
  { w with objects := Function.update w.objects o (f (w.objects o)) }

/-- `shmctl` removes the segment that it is given, `shm_unlink` whatever the name leads to. -/
def World.remove (b : Backend) (w : World) (o : Nat) : World :=
  match b with
  | .sysv => { w with name := if w.name = some o then none else w.name }
  | .posix => { w with name := none }

/-- The next system call of a process, which may fail for another reason than those shown. -/
def proceed (b : Backend) (ok : Bool) (w : World) : Phase → Option (Phase × World)
  | .create =>
    if !ok then some (.idle, w)
    else match w.name, b with
      | some _, _ => some (.attach, w)
      | none, .sysv => some (.map w.next true, w.create true)
      | none, .posix => some (.truncate w.next, w.create false)
  | .attach =>
    if !ok then some (.idle, w)
    else match w.name, b with
      | none, _ => some (.idle, w)
      | some o, .sysv => some (.map o false, w)
      | some o, .posix => some (.stat o, w)
  | .truncate o =>
    if ok then some (.map o true, w.modify o fun x => { x with sized := true })
    else some (.unlinkShort o, w)
  | .unlinkShort o => some (.idle, w.remove .posix o)
  -- a failing `fstat` ends the loop too
  | .stat o => some (if ok && !(w.objects o).sized then .stat o else .map o false, w)
  | .map o isCreator =>
    if !ok then some (.idle, w)
    else if isCreator then some (.initMutex o, w)
    else match b with
      | .sysv => some (.sleep o, w)
      | .posix => some (.ready o false, w)
  | .initMutex o => some (.ready o true, w.modify o fun x => { x with inits := x.inits + 1 })
  | .sleep o => some (.ready o false, w)
  | .remove o => some (.idle, w.remove b o)
  | .idle | .ready _ _ | .dead => none

structure State (P : Type) where
  phase : P → Phase
  world : World

inductive Action (P : Type) where
  | init (p : P)
  | proceed (p : P) (ok : Bool)
  | close (p : P)
  | destroy (p : P)
  | die (p : P)

variable {P : Type} [DecidableEq P]

def State.goto (s : State P) (p : P) (ph : Phase) : State P :=
  { s with phase := Function.update s.phase p ph }

def step (b : Backend) (s : State P) : Action P → Option (State P)
  | .init p => if s.phase p = .idle then some (s.goto p .create) else none
  | .proceed p ok =>
    (proceed b ok s.world (s.phase p)).map fun r => { s with world := r.2 }.goto p r.1
  | .close p => match s.phase p with
    | .ready _ _ => some (s.goto p .idle)
    | _ => none
  | .destroy p => match s.phase p with
    | .ready o true => some (s.goto p (.remove o))
    | .ready _ false => some (s.goto p .idle)
    | _ => none
  | .die p => if s.phase p = .dead then none else some (s.goto p .dead)

/-- Before the first process comes. -/
def init : State P := ⟨fun _ => .idle, ⟨fun _ => ⟨false, 0⟩, none, 0⟩⟩

/-! ## What one process does to the objects -/

/-- The object that a process has created and may still remove. -/
def Phase.created : Phase → Option Nat
  | .truncate o | .unlinkShort o | .map o true | .initMutex o | .ready o true | .remove o => some o
  | _ => none

/-- Of these, the one whose mutex it is going to initialise. -/
def Phase.preparing : Phase → Option Nat
  | .truncate o | .map o true | .initMutex o => some o
  | _ => none

def Phase.object : Phase → Option Nat
  | .truncate o | .unlinkShort o | .stat o | .map o _ | .initMutex o | .sleep o | .ready o _
  | .remove o => some o
  | .idle | .create | .attach | .dead => none

/-- The calls of `pthread_mutex_init` that the creator of an object has made. -/
def Phase.inits : Phase → Nat
  | .ready _ true | .remove _ => 1
  | _ => 0

theorem object_of_created {ph : Phase} {o : Nat} (h : ph.created = some o) :
    ph.object = some o := by
  cases ph with
  | map o' isCreator | ready o' isCreator =>
    cases isCreator with
    | false => simp [Phase.created] at h
    | true => exact h
  | truncate | unlinkShort | initMutex | remove => exact h
  | _ => simp [Phase.created] at h

theorem created_of_preparing {ph : Phase} {o : Nat} (h : ph.preparing = some o) :
    ph.created = some o ∧ ph.inits = 0 := by
  cases ph with
  | map o' isCreator =>
    cases isCreator with
    | false => simp [Phase.preparing] at h
    | true => exact ⟨h, rfl⟩
  | truncate | initMutex => exact ⟨h, rfl⟩
  | _ => simp [Phase.preparing] at h

/-- A step creates an object where the name was free, goes on with the one that the process has
created, removes that one, or leaves the objects alone. -/
inductive Effect (w : World) (ph : Phase) : Phase → World → Prop where
  | create (sized : Bool) (ph' : Phase) (hfree : w.name = none)
      (hnew : ph'.preparing = some w.next) :
    Effect w ph ph' (w.create sized)
  | goOn (o : Nat) (ph' : Phase) (f : Object → Object) (hold : ph.created = some o)
      (hnew : ph'.created = some o)
      (hinits : (f (w.objects o)).inits + ph.inits = (w.objects o).inits + ph'.inits)
      (hpreparing : ph.preparing = none →
        ph'.preparing = none ∧ (f (w.objects o)).inits = (w.objects o).inits) :
    Effect w ph ph' (w.modify o f)
  | remove (o : Nat) (b : Backend) (hold : ph.created = some o) : Effect w ph .idle (w.remove b o)
  | aside (ph' : Phase) (hnew : ph'.created = none)
    (hobject : ∀ o, ph'.object = some o → ph.object = some o ∨ w.name = some o) : Effect w ph ph' w

theorem Effect.same {w : World} {ph ph' : Phase} {o : Nat} (hold : ph.created = some o)
    (hnew : ph'.created = some o) (hinits : ph.inits = ph'.inits)
    (hpreparing : ph.preparing = none → ph'.preparing = none) : Effect w ph ph' w := by
  have hmodify : w.modify o id = w := by simp [World.modify]
  have heff : Effect w ph ph' (w.modify o id) :=
    .goOn o ph' id hold hnew (by rw [hinits, id]) fun h => ⟨hpreparing h, rfl⟩
  rwa [hmodify] at heff

theorem proceed_effect {b : Backend} {ok : Bool} {w w' : World} {ph ph' : Phase}
    (h : proceed b ok w ph = some (ph', w')) : Effect w ph ph' w' := by
  cases ph with
  | idle | ready | dead => simp [proceed] at h
  | create =>
    simp only [proceed] at h
    repeat' split at h
    all_goals obtain ⟨rfl, rfl⟩ := Prod.mk.inj (Option.some.inj h)
    · exact .aside _ rfl (by simp [Phase.object])
    · exact .aside _ rfl (by simp [Phase.object])
    · exact .create true _ ‹_› rfl
    · exact .create false _ ‹_› rfl
  | attach =>
    simp only [proceed] at h
    repeat' split at h
    all_goals obtain ⟨rfl, rfl⟩ := Prod.mk.inj (Option.some.inj h)
    · exact .aside _ rfl (by simp [Phase.object])
    · exact .aside _ rfl (by simp [Phase.object])
    · exact .aside _ rfl (by simp [Phase.object, *])
    · exact .aside _ rfl (by simp [Phase.object, *])
  | truncate o =>
    simp only [proceed] at h
    split at h <;> obtain ⟨rfl, rfl⟩ := Prod.mk.inj (Option.some.inj h)
    · exact .goOn o _ _ rfl rfl rfl (by simp [Phase.preparing])
    · exact .same rfl rfl rfl (by simp [Phase.preparing])
  | unlinkShort o | remove o =>
    obtain ⟨rfl, rfl⟩ := Prod.mk.inj (Option.some.inj h)
    exact .remove o _ rfl
  | stat o =>
    obtain ⟨rfl, rfl⟩ := Prod.mk.inj (Option.some.inj h)
    split <;> exact .aside _ rfl fun o' ho => Or.inl ho
  | map o isCreator =>
    simp only [proceed] at h
    repeat' split at h
    all_goals obtain ⟨rfl, rfl⟩ := Prod.mk.inj (Option.some.inj h)
    · exact .aside _ rfl (by simp [Phase.object])
    · subst_vars
      exact .same rfl rfl rfl (by simp [Phase.preparing])
    · exact .aside _ rfl fun o' ho => Or.inl ho
    · exact .aside _ rfl fun o' ho => Or.inl ho
  | initMutex o =>
    obtain ⟨rfl, rfl⟩ := Prod.mk.inj (Option.some.inj h)
    exact .goOn o _ _ rfl rfl rfl (by simp [Phase.preparing])
  | sleep o =>
    obtain ⟨rfl, rfl⟩ := Prod.mk.inj (Option.some.inj h)
    exact .aside _ rfl fun o' ho => Or.inl ho

theorem step_effect {b : Backend} {s s' : State P} {a : Action P} (hs : step b s a = some s') :
    ∃ p ph w, s' = ⟨Function.update s.phase p ph, w⟩ ∧ Effect s.world (s.phase p) ph w := by
  cases a with
  | init p =>
    simp only [step, Option.ite_none_right_eq_some, Option.some.injEq] at hs
    obtain ⟨-, rfl⟩ := hs
    exact ⟨p, _, _, rfl, .aside _ rfl (by simp [Phase.object])⟩
  | proceed p ok =>
    obtain ⟨⟨ph, w⟩, hr, rfl⟩ := Option.map_eq_some_iff.mp hs
    exact ⟨p, ph, w, rfl, proceed_effect hr⟩
  | close p =>
    simp only [step] at hs
    split at hs
    · obtain rfl := Option.some.inj hs
      exact ⟨p, _, _, rfl, .aside _ rfl (by simp [Phase.object])⟩
    · simp at hs
  | destroy p =>
    simp only [step] at hs
    split at hs
    · rename_i o hp
      obtain rfl := Option.some.inj hs
      exact ⟨p, _, _, rfl, .same (by rw [hp]; rfl) rfl (by rw [hp]; rfl)
        (by simp [Phase.preparing])⟩
    · obtain rfl := Option.some.inj hs
      exact ⟨p, _, _, rfl, .aside _ rfl (by simp [Phase.object])⟩
    · simp at hs
  | die p =>
    simp only [step, Option.ite_none_left_eq_some, Option.some.injEq] at hs
    obtain ⟨-, rfl⟩ := hs
    exact ⟨p, _, _, rfl, .aside _ rfl (by simp [Phase.object])⟩

/-! ## One creator, one initialisation -/

/-- How a process stands to the objects. The name leads to the one that it has created. -/
structure Fits (w : World) (ph : Phase) : Prop where
  fresh : ∀ o, ph.object = some o → o < w.next
  created : ∀ o, ph.created = some o → w.name = some o ∧ (w.objects o).inits = ph.inits

structure Inv (s : State P) : Prop where
  name : ∀ o, s.world.name = some o → o < s.world.next
  once : ∀ o, (s.world.objects o).inits ≤ 1
  fits : ∀ p, Fits s.world (s.phase p)
  unique : ∀ p q o, (s.phase p).created = some o → (s.phase q).created = some o → p = q

omit [DecidableEq P] in
theorem init_inv : Inv (init : State P) :=
  ⟨by simp [init], by simp [init],
    fun p => ⟨by simp [init, Phase.object], by simp [init, Phase.created]⟩,
    by simp [init, Phase.created]⟩

omit [DecidableEq P] in
theorem Inv.creator {s : State P} (h : Inv s) {p q : P} {o o' : Nat}
    (hp : (s.phase p).created = some o) (hq : (s.phase q).created = some o') : q = p := by
  -- all the processes that have created an object they may still remove are one
  have hname := ((h.fits q).created o' hq).1.symm.trans ((h.fits p).created o hp).1
  obtain rfl := Option.some.inj hname
  exact h.unique q p _ hq hp

theorem Inv.update {s : State P} (h : Inv s) (p : P) {ph : Phase} {w : World}
    (hname : ∀ o, w.name = some o → o < w.next) (honce : ∀ o, (w.objects o).inits ≤ 1)
    (hfits : Fits w ph) (hothers : ∀ q, q ≠ p → Fits w (s.phase q))
    (hunique : ∀ q o, q ≠ p → ph.created = some o → (s.phase q).created ≠ some o) :
    Inv ⟨Function.update s.phase p ph, w⟩ := by
  refine ⟨hname, honce, ?_, ?_⟩
  · rw [Function.forall_update_iff s.phase fun _ x => Fits w x]
    exact ⟨hfits, hothers⟩
  · intro q r o hq hr
    by_cases hqp : q = p
    · by_cases hrp : r = p
      · rw [hqp, hrp]
      · simp only [hqp, Function.update_self, Function.update_of_ne hrp] at hq hr
        exact absurd hr (hunique r o hrp hq)
    · by_cases hrp : r = p
      · simp only [hrp, Function.update_self, Function.update_of_ne hqp] at hq hr
        exact absurd hq (hunique q o hqp hr)
      · simp only [Function.update_of_ne hqp, Function.update_of_ne hrp] at hq hr
        exact h.unique q r o hq hr

theorem fits_of_not_created {w w' : World} {ph : Phase} (h : Fits w ph) (hnext : w.next ≤ w'.next)
    (hnone : ∀ o, ph.created ≠ some o) : Fits w' ph :=
  ⟨fun o ho => Nat.lt_of_lt_of_le (h.fresh o ho) hnext, fun o ho => absurd ho (hnone o)⟩

theorem inits_le (ph : Phase) : ph.inits ≤ 1 := by
  unfold Phase.inits
  split <;> omega

theorem remove_name {w : World} {o : Nat} (b : Backend) (h : w.name = some o) :
    (w.remove b o).name = none := by
  cases b <;> simp [World.remove, h]

theorem remove_rest (w : World) (b : Backend) (o : Nat) :
    (w.remove b o).objects = w.objects ∧ (w.remove b o).next = w.next := by
  cases b <;> exact ⟨rfl, rfl⟩

theorem create_inv {s : State P} (h : Inv s) (p : P) {ph : Phase} (sized : Bool)
    (hfree : s.world.name = none) (hnew : ph.preparing = some s.world.next) :
    Inv ⟨Function.update s.phase p ph, s.world.create sized⟩ := by
  obtain ⟨hcreated, hinits⟩ := created_of_preparing hnew
  -- what a process has created has the name
  have hnone : ∀ q o, (s.phase q).created ≠ some o := by
    intro q o hq
    simpa [hfree] using ((h.fits q).created o hq).1
  refine h.update p ?_ ?_ ⟨?_, ?_⟩ ?_ fun q o _ _ => hnone q o
  · intro o ho
    obtain rfl := Option.some.inj ho
    exact Nat.lt_succ_self _
  · intro o
    by_cases ho : o = s.world.next
    · simp [World.create, ho]
    · simpa [World.create, ho] using h.once o
  · intro o ho
    obtain rfl := Option.some.inj ((object_of_created hcreated).symm.trans ho)
    exact Nat.lt_succ_self _
  · intro o ho
    obtain rfl := Option.some.inj (hcreated.symm.trans ho)
    exact ⟨rfl, by simp [World.create, hinits]⟩
  · intro q _
    exact fits_of_not_created (h.fits q) (Nat.le_succ _) (hnone q)

theorem goOn_inv {s : State P} (h : Inv s) {p : P} {ph : Phase} {o : Nat} {f : Object → Object}
    (hold : (s.phase p).created = some o) (hnew : ph.created = some o)
    (hinits : (f (s.world.objects o)).inits + (s.phase p).inits =
      (s.world.objects o).inits + ph.inits) :
    Inv ⟨Function.update s.phase p ph, s.world.modify o f⟩ := by
  obtain ⟨hname, hbefore⟩ := (h.fits p).created o hold
  have hnow : (f (s.world.objects o)).inits = ph.inits := by omega
  have hnone : ∀ q, q ≠ p → ∀ o', (s.phase q).created ≠ some o' :=
    fun q hq o' ho => hq (h.creator hold ho)
  refine h.update p h.name ?_ ⟨?_, ?_⟩ ?_ fun q o' hq _ => hnone q hq o'
  · intro o'
    by_cases ho : o' = o
    · simpa [World.modify, ho, hnow] using inits_le ph
    · simpa [World.modify, ho] using h.once o'
  · intro o' ho
    obtain rfl := Option.some.inj ((object_of_created hnew).symm.trans ho)
    exact h.name o hname
  · intro o' ho
    obtain rfl := Option.some.inj (hnew.symm.trans ho)
    exact ⟨hname, by simp [World.modify, hnow]⟩
  · intro q hq
    exact fits_of_not_created (h.fits q) (Nat.le_refl _) (hnone q hq)

theorem remove_inv {s : State P} (h : Inv s) {p : P} {o : Nat} (b : Backend)
    (hold : (s.phase p).created = some o) :
    Inv ⟨Function.update s.phase p .idle, s.world.remove b o⟩ := by
  have hname := remove_name b ((h.fits p).created o hold).1
  obtain ⟨hobjects, hnext⟩ := remove_rest s.world b o
  refine h.update p (by simp [hname]) (by rw [hobjects]; exact h.once) ⟨?_, ?_⟩ ?_ ?_
  · simp [Phase.object]
  · simp [Phase.created]
  · intro q hq
    exact fits_of_not_created (h.fits q) (Nat.le_of_eq hnext.symm) fun o' ho =>
      hq (h.creator hold ho)
  · simp [Phase.created]

theorem step_inv {b : Backend} (s : State P) (a : Action P) (s' : State P) (h : Inv s)
    (hs : step b s a = some s') : Inv s' := by
  obtain ⟨p, ph, w, rfl, heff⟩ := step_effect hs
  cases heff with
  | create sized _ hfree hnew => exact create_inv h p sized hfree hnew
  | goOn o _ f hold hnew hinits hpreparing => exact goOn_inv h hold hnew hinits
  | remove o b' hold => exact remove_inv h b' hold
  | aside _ hnew hobject =>
    refine h.update p h.name h.once ⟨?_, by simp [hnew]⟩ (fun q _ => h.fits q) (by simp [hnew])
    intro o ho
    rcases hobject o ho with hold | hname
    · exact (h.fits p).fresh o hold
    · exact h.name o hname

/-- No mutex is initialised twice, no handle of a creator comes before the initialisation, and who
removes an object removes the one that it has created. -/
structure Orderly (s : State P) : Prop where
  once : ∀ o, (s.world.objects o).inits ≤ 1
  first : ∀ p o, s.phase p = .initMutex o → (s.world.objects o).inits = 0
  ready : ∀ p o, s.phase p = .ready o true → (s.world.objects o).inits = 1
  own : ∀ p o, s.phase p = .remove o ∨ s.phase p = .unlinkShort o → s.world.name = some o
  alone : ∀ p q, (s.phase p).created ≠ none → (s.phase q).created ≠ none → q = p

theorem creation_orderly {b : Backend} {s : State P} (hs : Reachable (step b) init s) :
    Orderly s := by
  have h : Inv s := hs.invariant init_inv step_inv
  have hcreated := fun p => (h.fits p).created
  refine ⟨h.once, ?_, ?_, ?_, ?_⟩
  · intro p o hp
    have := (hcreated p o (by rw [hp]; rfl)).2
    rwa [hp] at this
  · intro p o hp
    have := (hcreated p o (by rw [hp]; rfl)).2
    rwa [hp] at this
  · rintro p o (hp | hp)
    · exact (hcreated p o (by rw [hp]; rfl)).1
    · exact (hcreated p o (by rw [hp]; rfl)).1
  · intro p q hp hq
    obtain ⟨o, hp⟩ := Option.ne_none_iff_exists'.mp hp
    obtain ⟨o', hq⟩ := Option.ne_none_iff_exists'.mp hq
    exact h.creator hp hq

/-- The second process finds the name taken, and has its handle before the mutex is initialised. -/
def overtakenCreator : List (Action Bool) :=
  [.init false, .init true, .proceed false true] ++ List.replicate 4 (.proceed true true) ++
    List.replicate 2 (.proceed false true)

theorem overtakenCreator_orderly :
    ∃ s, exec (step .sysv) init overtakenCreator = some s ∧ s.phase false = .ready 0 true ∧
      s.phase true = .ready 0 false ∧ Orderly s :=
  ⟨_, rfl, rfl, rfl, creation_orderly (b := .sysv) ⟨overtakenCreator, rfl⟩⟩

/-! ## Objects that are never finished -/

/-- Nobody is going to initialise the mutex of `o`. -/
structure Unfinished (o : Nat) (s : State P) : Prop where
  known : o < s.world.next
  inits : (s.world.objects o).inits = 0
  nobody : ∀ p, (s.phase p).preparing ≠ some o

theorem step_unfinished {b : Backend} {o : Nat} (s : State P) (a : Action P) (s' : State P)
    (h : Unfinished o s) (hs : step b s a = some s') : Unfinished o s' := by
  obtain ⟨p, ph, w, rfl, heff⟩ := step_effect hs
  obtain ⟨hknown, hinits, hnobody⟩ := h
  have hothers : ∀ {ph : Phase}, ph.preparing ≠ some o →
      ∀ q, (Function.update s.phase p ph q).preparing ≠ some o := by
    intro ph hph
    rw [Function.forall_update_iff s.phase fun _ x => x.preparing ≠ some o]
    exact ⟨hph, fun q _ => hnobody q⟩
  cases heff with
  | create sized _ hfree hnew =>
    have hne : o ≠ s.world.next := Nat.ne_of_lt hknown
    refine ⟨Nat.lt_succ_of_lt hknown, by simpa [World.create, hne] using hinits, hothers ?_⟩
    rw [hnew]
    simpa using hne.symm
  | goOn o' _ f hold hnew hinits' hpreparing =>
    by_cases ho : o = o'
    · subst ho
      have hpre : (s.phase p).preparing = none := by
        by_contra hsome
        obtain ⟨o', ho'⟩ := Option.ne_none_iff_exists'.mp hsome
        obtain rfl := Option.some.inj (hold.symm.trans (created_of_preparing ho').1)
        exact hnobody p ho'
      obtain ⟨hpre', hsame⟩ := hpreparing hpre
      exact ⟨hknown, by simp [World.modify, hsame, hinits], hothers (by simp [hpre'])⟩
    · refine ⟨hknown, by simpa [World.modify, ho] using hinits, hothers fun hp => ?_⟩
      exact ho (Option.some.inj ((created_of_preparing hp).1.symm.trans hnew))
  | remove o' b' hold =>
    obtain ⟨hobjects, hnext⟩ := remove_rest s.world b' o'
    exact ⟨by rw [hnext]; exact hknown, by rw [hobjects]; exact hinits,
      hothers (by simp [Phase.preparing])⟩
  | aside _ hnew hobject =>
    refine ⟨hknown, hinits, hothers fun hp => ?_⟩
    simp [(created_of_preparing hp).1] at hnew

/-- Some run initialises the mutex of `o`. -/
def CanFinish (b : Backend) (o : Nat) (s : State P) : Prop :=
  ∃ as t, exec (step b) s as = some t ∧ (t.world.objects o).inits = (s.world.objects o).inits + 1

theorem CanFinish.of_step {b : Backend} {o : Nat} {s s' : State P} {a : Action P}
    (hs : step b s a = some s') (hsame : (s'.world.objects o).inits = (s.world.objects o).inits)
    (h : CanFinish b o s') : CanFinish b o s := by
  obtain ⟨as, t, hrun, hinits⟩ := h
  exact ⟨a :: as, t, exec_cons.mpr ⟨s', hs, hrun⟩, hinits.trans (by rw [hsame])⟩

theorem canFinish_initMutex (b : Backend) {s : State P} {p : P} {o : Nat}
    (hp : s.phase p = .initMutex o) : CanFinish b o s := by
  have hs : step b s (.proceed p true) =
      some ({ s with world := s.world.modify o fun x => { x with inits := x.inits + 1 } }.goto p
      (.ready o true)) := by
    simp [step, proceed, hp]
  exact ⟨[.proceed p true], _, exec_cons.mpr ⟨_, hs, rfl⟩, by simp [State.goto, World.modify]⟩

theorem canFinish_map (b : Backend) {s : State P} {p : P} {o : Nat} (hp : s.phase p = .map o true) :
    CanFinish b o s := by
  have hs : step b s (.proceed p true) = some (s.goto p (.initMutex o)) := by
    simp [step, proceed, hp]
  refine .of_step hs rfl (canFinish_initMutex b (p := p) ?_)
  simp [State.goto]

theorem canFinish_truncate (b : Backend) {s : State P} {p : P} {o : Nat}
    (hp : s.phase p = .truncate o) : CanFinish b o s := by
  have hs : step b s (.proceed p true) =
      some ({ s with world := s.world.modify o fun x => { x with sized := true } }.goto p
      (.map o true)) := by
    simp [step, proceed, hp]
  refine .of_step hs ?_ (canFinish_map b (p := p) ?_)
  · simp [State.goto, World.modify]
  · simp [State.goto]

theorem canFinish_of_preparing (b : Backend) {s : State P} {p : P} {o : Nat}
    (h : (s.phase p).preparing = some o) : CanFinish b o s := by
  cases hp : s.phase p with
  | truncate o' =>
    obtain rfl : o' = o := by simpa [hp, Phase.preparing] using h
    exact canFinish_truncate b hp
  | map o' isCreator =>
    cases isCreator with
    | false => simp [hp, Phase.preparing] at h
    | true =>
      obtain rfl : o' = o := by simpa [hp, Phase.preparing] using h
      exact canFinish_map b hp
  | initMutex o' =>
    obtain rfl : o' = o := by simpa [hp, Phase.preparing] using h
    exact canFinish_initMutex b hp
  | _ => simp [hp, Phase.preparing] at h

/-- A mutex that has not been initialised never is, if its creator is not on the way to do it:
nobody does it in its place. -/
theorem never_initialised_iff {b : Backend} {s : State P} {o : Nat} (hknown : o < s.world.next)
    (hinits : (s.world.objects o).inits = 0) :
    (∀ as t, exec (step b) s as = some t → (t.world.objects o).inits = 0) ↔
      ∀ p, (s.phase p).preparing ≠ some o := by
  constructor
  · intro hnever p hp
    obtain ⟨as, t, hrun, hone⟩ := canFinish_of_preparing b hp
    have := hnever as t hrun
    omega
  · intro hnobody as t hrun
    have hreach : Reachable (step b) s t := ⟨as, hrun⟩
    exact (hreach.invariant (I := Unfinished o) ⟨hknown, hinits, hnobody⟩ step_unfinished).inits

/-- The creator is killed before it has mapped the segment. -/
def killedCreator : State Bool :=
  (exec (step .sysv) init [.init false, .proceed false true, .die false]).getD init

theorem killedCreator_never_initialised :
    killedCreator.world.name = some 0 ∧
      ∀ as t, exec (step .sysv) killedCreator as = some t → (t.world.objects 0).inits = 0 :=
  ⟨rfl, (never_initialised_iff (by decide) rfl).mpr (by decide)⟩

/-- The name leads to an object whose creator has gone before it initialised the mutex. -/
structure Abandoned (o : Nat) (s : State P) : Prop where
  name : s.world.name = some o
  inits : (s.world.objects o).inits = 0
  nobody : ∀ p, (s.phase p).created = none

/-- Once the creator is out of the way nobody else may remove the object: who created something has
the name, and so it is this one. -/
theorem abandoned_of_gone {b : Backend} {o : Nat} {s : State P} (hs : Reachable (step b) init s)
    (hname : s.world.name = some o) (hinits : (s.world.objects o).inits = 0)
    (hgone : ∀ p, (s.phase p).created ≠ some o) : Abandoned o s := by
  have h : Inv s := hs.invariant init_inv step_inv
  refine ⟨hname, hinits, fun p => ?_⟩
  by_contra hcreated
  obtain ⟨o', ho'⟩ := Option.ne_none_iff_exists'.mp hcreated
  obtain rfl := Option.some.inj (((h.fits p).created o' ho').1.symm.trans hname)
  exact hgone p ho'

theorem step_abandoned {b : Backend} {o : Nat} {s s' : State P} {a : Action P} (h : Abandoned o s)
    (hs : step b s a = some s') :
    Abandoned o s' ∧ ∀ p o', (s'.phase p).object = some o' → o' = o ∨ (s.phase p).object =
      some o' := by
  obtain ⟨p, ph, w, rfl, heff⟩ := step_effect hs
  cases heff with
  | create sized _ hfree hnew => simp [h.name] at hfree
  | goOn o' _ f hold => simp [h.nobody p] at hold
  | remove o' b' hold => simp [h.nobody p] at hold
  | aside _ hnew hobject =>
    refine ⟨⟨h.name, h.inits, ?_⟩, ?_⟩
    · rw [Function.forall_update_iff s.phase fun _ x => x.created = none]
      exact ⟨hnew, fun q _ => h.nobody q⟩
    · rw [Function.forall_update_iff s.phase fun q x =>
        ∀ o', x.object = some o' → o' = o ∨ (s.phase q).object = some o']
      refine ⟨fun o' ho => ?_, fun q _ o' ho => Or.inr ho⟩
      rcases hobject o' ho with hold | hname
      · exact Or.inr hold
      · exact Or.inl (Option.some.inj (hname.symm.trans h.name))

/-- Such an object keeps the name for good, with its mutex as it is. Whoever attaches from then on
gets it, and nobody can remove it. -/
theorem abandoned_for_good {b : Backend} {o : Nat} {s t : State P} {as : List (Action P)}
    (h : Abandoned o s) (hrun : exec (step b) s as = some t) :
    Abandoned o t ∧ ∀ p o', (t.phase p).object = some o' → o' = o ∨ (s.phase p).object =
      some o' := by
  have hreach : Reachable (step b) s t := ⟨as, hrun⟩
  refine hreach.invariant (I := fun t => Abandoned o t ∧
    ∀ p o', (t.phase p).object = some o' → o' = o ∨ (s.phase p).object = some o')
    ⟨h, fun _ _ ho => Or.inr ho⟩ ?_
  rintro t a t' ⟨ht, hobjects⟩ hs
  obtain ⟨ht', hobjects'⟩ := step_abandoned ht hs
  refine ⟨ht', fun p o' ho => ?_⟩
  rcases hobjects' p o' ho with heq | hold
  · exact Or.inl heq
  · exact hobjects p o' hold

/-- The next process gets what it has left. -/
def nextProcess : List (Action Bool) := .init true :: List.replicate 4 (.proceed true true)

theorem killedCreator_for_good :
    exec (step .sysv) init [.init false, .proceed false true, .die false] = some killedCreator ∧
      ∃ t, exec (step .sysv) killedCreator nextProcess = some t ∧ t.phase true = .ready 0 false ∧
        Abandoned 0 t := by
  have habandoned : Abandoned 0 killedCreator :=
    abandoned_of_gone (b := .sysv) ⟨[.init false, .proceed false true, .die false], rfl⟩ rfl rfl
      (by decide)
  refine ⟨rfl, _, rfl, rfl, ?_⟩
  exact (abandoned_for_good (b := .sysv) habandoned (show exec _ _ nextProcess = _ from rfl)).1

/-! ## The size of the object -/

/-- The object that a process maps or has mapped. -/
def Phase.mapped : Phase → Option Nat
  | .map o _ | .initMutex o | .sleep o | .ready o _ | .remove o => some o
  | _ => none

/-- No `fstat` fails. -/
def StatOk (s : State P) : Action P → Prop
  | .proceed p false => ∀ o, s.phase p ≠ .stat o
  | _ => True

structure SizedInv (b : Backend) (s : State P) : Prop where
  inv : Inv s
  -- the segments of System V have their size from the start
  sysv : b = .sysv → ∀ o, o < s.world.next → (s.world.objects o).sized = true
  mapped : ∀ p o, (s.phase p).mapped = some o → (s.world.objects o).sized = true

theorem object_of_mapped {ph : Phase} {o : Nat} (h : ph.mapped = some o) : ph.object = some o := by
  cases ph <;> first | exact h | simp [Phase.mapped] at h

/-- An object keeps its size. -/
def Grows (w w' : World) : Prop :=
  ∀ o, o < w.next → (w.objects o).sized = true → (w'.objects o).sized = true

theorem create_grows (w : World) (sized : Bool) : Grows w (w.create sized) := by
  intro o ho hsized
  simpa [World.create, Nat.ne_of_lt ho] using hsized

theorem modify_grows (w : World) (o : Nat) {f : Object → Object}
    (hf : (w.objects o).sized = true → (f (w.objects o)).sized = true) :
    Grows w (w.modify o f) := by
  intro o' _ hsized
  by_cases ho : o' = o
  · subst ho
    simpa [World.modify] using hf hsized
  · simpa [World.modify, ho] using hsized

theorem remove_grows (w : World) (b : Backend) (o : Nat) : Grows w (w.remove b o) := by
  intro o' _ hsized
  rw [(remove_rest w b o).1]
  exact hsized

/-- A system call keeps the sizes: what the process maps after it has its size, and so has what it
creates under System V. -/
structure KeepsSizes (b : Backend) (w : World) (ph' : Phase) (w' : World) : Prop where
  grows : Grows w w'
  mapped : ∀ o, ph'.mapped = some o → (w'.objects o).sized = true
  sysv : b = .sysv → ∀ o, o < w'.next → o < w.next ∨ (w'.objects o).sized = true

theorem KeepsSizes.same {b : Backend} {w : World} {ph' : Phase}
    (hmapped : ∀ o, ph'.mapped = some o → (w.objects o).sized = true) : KeepsSizes b w ph' w :=
  ⟨fun _ _ h => h, hmapped, fun _ _ ho => Or.inl ho⟩

theorem KeepsSizes.modify {b : Backend} {w : World} {ph' : Phase} {o : Nat} {f : Object → Object}
    (hph : ph'.mapped = some o) (hf : (f (w.objects o)).sized = true) :
    KeepsSizes b w ph' (w.modify o f) := by
  refine ⟨modify_grows w o fun _ => hf, fun o' ho => ?_, fun _ _ ho => Or.inl ho⟩
  obtain rfl := Option.some.inj (hph.symm.trans ho)
  simpa [World.modify] using hf

theorem KeepsSizes.remove (b b' : Backend) (w : World) (o : Nat) :
    KeepsSizes b w .idle (w.remove b' o) := by
  refine ⟨remove_grows w b' o, by simp [Phase.mapped], fun _ o' ho => Or.inl ?_⟩
  rwa [(remove_rest w b' o).2] at ho

theorem KeepsSizes.create (b : Backend) (w : World) :
    KeepsSizes b w (.map w.next true) (w.create true) := by
  refine ⟨create_grows w true, by simp [Phase.mapped, World.create], fun _ o ho => ?_⟩
  rcases Nat.lt_succ_iff_lt_or_eq.mp ho with hlt | rfl
  · exact Or.inl hlt
  · exact Or.inr (by simp [World.create])

theorem create_keepsSizes {b : Backend} {ok : Bool} {w w' : World} {ph' : Phase}
    (h : proceed b ok w .create = some (ph', w')) : KeepsSizes b w ph' w' := by
  simp only [proceed] at h
  repeat' split at h
  all_goals obtain ⟨rfl, rfl⟩ := Prod.mk.inj (Option.some.inj h)
  · exact .same (by simp [Phase.mapped])
  · exact .same (by simp [Phase.mapped])
  · exact .create .sysv w
  · exact ⟨create_grows w false, by simp [Phase.mapped], by simp⟩

theorem attach_keepsSizes {b : Backend} {ok : Bool} {w w' : World} {ph' : Phase}
    (hname : b = .sysv → ∀ o, w.name = some o → (w.objects o).sized = true)
    (h : proceed b ok w .attach = some (ph', w')) : KeepsSizes b w ph' w' := by
  simp only [proceed] at h
  repeat' split at h
  all_goals obtain ⟨rfl, rfl⟩ := Prod.mk.inj (Option.some.inj h)
  · exact .same (by simp [Phase.mapped])
  · exact .same (by simp [Phase.mapped])
  · rename_i o hq
    refine .same fun o' ho => ?_
    obtain rfl := Option.some.inj ho
    exact hname rfl _ hq
  · exact .same (by simp [Phase.mapped])

theorem truncate_keepsSizes {b : Backend} {ok : Bool} {w w' : World} {o : Nat} {ph' : Phase}
    (h : proceed b ok w (.truncate o) = some (ph', w')) : KeepsSizes b w ph' w' := by
  simp only [proceed] at h
  split at h <;> obtain ⟨rfl, rfl⟩ := Prod.mk.inj (Option.some.inj h)
  · exact .modify rfl rfl
  · exact .same (by simp [Phase.mapped])

theorem stat_keepsSizes {b : Backend} {w w' : World} {o : Nat} {ph' : Phase}
    (h : proceed b true w (.stat o) = some (ph', w')) : KeepsSizes b w ph' w' := by
  obtain ⟨rfl, rfl⟩ := Prod.mk.inj (Option.some.inj h)
  refine .same fun o' ho => ?_
  cases hsized : (w.objects o).sized with
  | false => simp [hsized, Phase.mapped] at ho
  | true =>
    obtain rfl : o = o' := by simpa [hsized, Phase.mapped] using ho
    exact hsized

theorem map_keepsSizes {b : Backend} {ok isCreator : Bool} {w w' : World} {o : Nat} {ph' : Phase}
    (hsized : (w.objects o).sized = true) (h : proceed b ok w (.map o isCreator) = some (ph', w')) :
    KeepsSizes b w ph' w' := by
  have hmapped : ∀ o', some o = some o' → (w.objects o').sized = true := by
    rintro _ ⟨⟩
    exact hsized
  simp only [proceed] at h
  repeat' split at h
  all_goals obtain ⟨rfl, rfl⟩ := Prod.mk.inj (Option.some.inj h)
  · exact .same (by simp [Phase.mapped])
  all_goals exact .same hmapped

theorem proceed_keepsSizes {b : Backend} {ok : Bool} {w w' : World} {ph ph' : Phase}
    (hname : b = .sysv → ∀ o, w.name = some o → (w.objects o).sized = true)
    (hstat : ok = false → ∀ o, ph ≠ .stat o)
    (hmapped : ∀ o, ph.mapped = some o → (w.objects o).sized = true)
    (h : proceed b ok w ph = some (ph', w')) : KeepsSizes b w ph' w' := by
  cases ph with
  | idle | ready | dead => simp [proceed] at h
  | create => exact create_keepsSizes h
  | attach => exact attach_keepsSizes hname h
  | truncate o => exact truncate_keepsSizes h
  | unlinkShort o | remove o =>
    obtain ⟨rfl, rfl⟩ := Prod.mk.inj (Option.some.inj h)
    exact .remove ..
  | stat o =>
    cases ok with
    | false => exact absurd rfl (hstat rfl o)
    | true => exact stat_keepsSizes h
  | map o isCreator => exact map_keepsSizes (hmapped o rfl) h
  | initMutex o =>
    obtain ⟨rfl, rfl⟩ := Prod.mk.inj (Option.some.inj h)
    exact .modify rfl (hmapped o rfl)
  | sleep o =>
    obtain ⟨rfl, rfl⟩ := Prod.mk.inj (Option.some.inj h)
    exact .same hmapped

theorem SizedInv.goto {b : Backend} {s : State P} (h : SizedInv b s) {p : P} {ph : Phase}
    (hinv : Inv (s.goto p ph)) (hph : ∀ o, ph.mapped = some o → (s.phase p).mapped = some o) :
    SizedInv b (s.goto p ph) := by
  refine ⟨hinv, h.sysv, ?_⟩
  simp only [State.goto]
  rw [Function.forall_update_iff s.phase fun _ x => ∀ o, x.mapped = some o →
    (s.world.objects o).sized = true]
  exact ⟨fun o ho => h.mapped p o (hph o ho), fun q _ => h.mapped q⟩

theorem step_sizedInv {b : Backend} (s : State P) (a : Action P) (s' : State P) (h : SizedInv b s)
    (hok : StatOk s a) (hs : step b s a = some s') : SizedInv b s' := by
  have hinv := step_inv s a s' h.inv hs
  cases a with
  | init p =>
    simp only [step, Option.ite_none_right_eq_some, Option.some.injEq] at hs
    obtain ⟨-, rfl⟩ := hs
    exact h.goto hinv (by simp [Phase.mapped])
  | proceed p ok =>
    obtain ⟨⟨ph, w⟩, hr, rfl⟩ := Option.map_eq_some_iff.mp hs
    have hstat : ok = false → ∀ o, s.phase p ≠ .stat o := by
      rintro rfl
      exact hok
    obtain ⟨hgrows, hmapped, hsysv⟩ :=
      proceed_keepsSizes (fun hb o ho => h.sysv hb o (h.inv.name o ho)) hstat (h.mapped p) hr
    refine ⟨hinv, fun hb o ho => ?_, ?_⟩
    · rcases hsysv hb o ho with hlt | hsized
      · exact hgrows o hlt (h.sysv hb o hlt)
      · exact hsized
    · simp only [State.goto]
      rw [Function.forall_update_iff s.phase fun _ x => ∀ o, x.mapped = some o →
        (w.objects o).sized = true]
      refine ⟨hmapped, fun q _ o ho => ?_⟩
      exact hgrows o ((h.inv.fits q).fresh o (object_of_mapped ho)) (h.mapped q o ho)
  | close p =>
    simp only [step] at hs
    split at hs
    · obtain rfl := Option.some.inj hs
      exact h.goto hinv (by simp [Phase.mapped])
    · simp at hs
  | destroy p =>
    simp only [step] at hs
    split at hs
    · rename_i hp
      obtain rfl := Option.some.inj hs
      exact h.goto hinv (by simp [Phase.mapped, hp])
    · obtain rfl := Option.some.inj hs
      exact h.goto hinv (by simp [Phase.mapped])
    · simp at hs
  | die p =>
    simp only [step, Option.ite_none_left_eq_some, Option.some.injEq] at hs
    obtain ⟨-, rfl⟩ := hs
    exact h.goto hinv (by simp [Phase.mapped])

omit [DecidableEq P] in
theorem init_sizedInv (b : Backend) : SizedInv b (init : State P) :=
  ⟨init_inv, by simp [init], by simp [init, Phase.mapped]⟩

/-- While no `fstat` fails, every handle is one to an object of the full size. -/
theorem handle_sized {b : Backend} {s : State P} {as : List (Action P)}
    (hok : Along (step b) StatOk init as) (hrun : exec (step b) init as = some s) {p : P} {o : Nat}
    {isCreator : Bool} (hp : s.phase p = .ready o isCreator) :
    (s.world.objects o).sized = true := by
  have h : SizedInv b s := invariant step_sizedInv (init_sizedInv b) hok hrun
  exact h.mapped p o (by rw [hp]; rfl)

/-- The second process waits for the size that the first one gives the object. -/
def sizedInTime : List (Action Bool) :=
  [.init false, .proceed false true, .init true, .proceed true true, .proceed true true,
    .proceed true true, .proceed false true, .proceed true true, .proceed true true]

theorem sizedInTime_sized :
    ∃ s, exec (step .posix) init sizedInTime = some s ∧ s.phase true = .ready 0 false ∧
      (s.world.objects 0).sized = true := by
  refine ⟨_, rfl, rfl, ?_⟩
  refine handle_sized (b := .posix) (p := true) ?_ (show exec _ _ sizedInTime = _ from rfl) rfl
  exact along_of_forall_mem (by simp [sizedInTime, StatOk]) _

/-! ## A wait without end -/

/-- The object is too short, and nobody is going to make it longer. -/
structure Short (o : Nat) (s : State P) : Prop where
  known : o < s.world.next
  short : (s.world.objects o).sized = false
  nobody : ∀ p, s.phase p ≠ .truncate o

theorem proceed_short {b : Backend} {ok : Bool} {w w' : World} {ph ph' : Phase} {o : Nat}
    (hknown : o < w.next) (hshort : (w.objects o).sized = false) (hph : ph ≠ .truncate o)
    (h : proceed b ok w ph = some (ph', w')) :
    o < w'.next ∧ (w'.objects o).sized = false ∧ ph' ≠ .truncate o := by
  have hne : o ≠ w.next := Nat.ne_of_lt hknown
  cases ph with
  | idle | ready | dead => simp [proceed] at h
  | create =>
    simp only [proceed] at h
    repeat' split at h
    all_goals obtain ⟨rfl, rfl⟩ := Prod.mk.inj (Option.some.inj h)
    · exact ⟨hknown, hshort, by simp⟩
    · exact ⟨hknown, hshort, by simp⟩
    · exact ⟨Nat.lt_succ_of_lt hknown, by simpa [World.create, hne] using hshort, by simp⟩
    · exact ⟨Nat.lt_succ_of_lt hknown, by simpa [World.create,
        hne] using hshort, by simpa using hne.symm⟩
  | truncate o' =>
    have ho : o ≠ o' := fun ho => hph (by rw [ho])
    simp only [proceed] at h
    split at h <;> obtain ⟨rfl, rfl⟩ := Prod.mk.inj (Option.some.inj h)
    · exact ⟨hknown, by simpa [World.modify, ho] using hshort, by simp⟩
    · exact ⟨hknown, hshort, by simp⟩
  | unlinkShort o' | remove o' =>
    obtain ⟨rfl, rfl⟩ := Prod.mk.inj (Option.some.inj h)
    rw [(remove_rest w _ o').1, (remove_rest w _ o').2]
    exact ⟨hknown, hshort, by simp⟩
  | initMutex o' =>
    obtain ⟨rfl, rfl⟩ := Prod.mk.inj (Option.some.inj h)
    refine ⟨hknown, ?_, by simp⟩
    by_cases ho : o = o'
    · subst ho
      simpa [World.modify] using hshort
    · simpa [World.modify, ho] using hshort
  | attach | stat | map | sleep =>
    simp only [proceed] at h
    repeat' split at h
    all_goals obtain ⟨rfl, rfl⟩ := Prod.mk.inj (Option.some.inj h)
    all_goals exact ⟨hknown, hshort, by simp⟩

theorem Short.goto {o : Nat} {s : State P} (h : Short o s) {p : P} {ph : Phase}
    (hph : ph ≠ .truncate o) : Short o (s.goto p ph) := by
  refine ⟨h.known, h.short, ?_⟩
  simp only [State.goto]
  rw [Function.forall_update_iff s.phase fun _ x => x ≠ .truncate o]
  exact ⟨hph, fun q _ => h.nobody q⟩

theorem step_short {b : Backend} {o : Nat} {s s' : State P} {a : Action P} (h : Short o s)
    (hs : step b s a = some s') : Short o s' := by
  cases a with
  | init p =>
    simp only [step, Option.ite_none_right_eq_some, Option.some.injEq] at hs
    obtain ⟨-, rfl⟩ := hs
    exact h.goto (by simp)
  | proceed p ok =>
    obtain ⟨⟨ph, w⟩, hr, rfl⟩ := Option.map_eq_some_iff.mp hs
    obtain ⟨hknown, hshort, hph⟩ := proceed_short h.known h.short (h.nobody p) hr
    refine ⟨hknown, hshort, ?_⟩
    simp only [State.goto]
    rw [Function.forall_update_iff s.phase fun _ x => x ≠ .truncate o]
    exact ⟨hph, fun q _ => h.nobody q⟩
  | close p | destroy p =>
    simp only [step] at hs
    split at hs
    all_goals first
      | (simp at hs; done)
      | (obtain rfl := Option.some.inj hs; exact h.goto (by simp))
  | die p =>
    simp only [step, Option.ite_none_left_eq_some, Option.some.injEq] at hs
    obtain ⟨-, rfl⟩ := hs
    exact h.goto (by simp)

/-- The process that an action moves. -/
def Action.process : Action P → P
  | .init p | .proceed p _ | .close p | .destroy p | .die p => p

theorem step_others {b : Backend} {s s' : State P} {a : Action P} (hs : step b s a = some s')
    {p : P} (hp : p ≠ a.process) : s'.phase p = s.phase p := by
  cases a with
  | proceed q ok =>
    obtain ⟨r, -, rfl⟩ := Option.map_eq_some_iff.mp hs
    exact Function.update_of_ne hp _ _
  | init q | close q | destroy q | die q =>
    simp only [step] at hs
    split at hs
    all_goals first
      | (simp at hs; done)
      | (obtain rfl := Option.some.inj hs; exact Function.update_of_ne hp _ _)

theorem step_waiting {b : Backend} {o : Nat} {s s' : State P} {a : Action P} {p : P} (h : Short o s)
    (hp : s.phase p = .stat o ∨ s.phase p = .dead) (hok : StatOk s a) (hs : step b s a = some s') :
    s'.phase p = .stat o ∨ s'.phase p = .dead := by
  -- in the loop the process takes `fstat` after `fstat`, and is out of it only when it dies
  by_cases hmove : p = a.process
  · cases a with
    | init q | close q | destroy q =>
      obtain rfl : p = q := hmove
      rcases hp with hp | hp <;> simp [step, hp] at hs
    | proceed q ok =>
      obtain rfl : p = q := hmove
      rcases hp with hp | hp
      · cases ok with
        | false => exact absurd hp (hok o)
        | true =>
          simp only [step, proceed, hp, h.short, Option.map_some, Option.some.injEq] at hs
          obtain rfl := hs
          exact Or.inl (Function.update_self _ _ _)
      · simp [step, proceed, hp] at hs
    | die q =>
      obtain rfl : p = q := hmove
      simp only [step, Option.ite_none_left_eq_some, Option.some.injEq] at hs
      obtain ⟨-, rfl⟩ := hs
      exact Or.inr (Function.update_self _ _ _)
  · rwa [step_others hs hmove]

/-! ## How an object stays short -/

theorem proceed_truncate {b : Backend} {ok : Bool} {w w' : World} {ph : Phase} {o : Nat}
    (h : proceed b ok w ph = some (.truncate o, w')) : (w'.objects o).sized = false := by
  cases ph with
  | create =>
    simp only [proceed] at h
    repeat' split at h
    all_goals simp only [Option.some.injEq, Prod.mk.injEq, reduceCtorEq, false_and,
      Phase.truncate.injEq] at h
    obtain ⟨rfl, rfl⟩ := h
    simp [World.create]
  | _ =>
    simp only [proceed] at h
    repeat' split at h
    all_goals simp at h

/-- What a creator is about to give its size has none yet. -/
structure TruncateInv (s : State P) : Prop where
  inv : Inv s
  short : ∀ p o, s.phase p = .truncate o → (s.world.objects o).sized = false

theorem TruncateInv.goto {s : State P} (h : TruncateInv s) {p : P} {ph : Phase}
    (hinv : Inv (s.goto p ph)) (hph : ∀ o, ph ≠ .truncate o) : TruncateInv (s.goto p ph) := by
  refine ⟨hinv, ?_⟩
  simp only [State.goto]
  rw [Function.forall_update_iff s.phase fun _ x => ∀ o, x = .truncate o →
    (s.world.objects o).sized = false]
  exact ⟨fun o ho => absurd ho (hph o), fun q _ => h.short q⟩

theorem step_truncateInv {b : Backend} (s : State P) (a : Action P) (s' : State P)
    (h : TruncateInv s) (hs : step b s a = some s') : TruncateInv s' := by
  have hinv := step_inv s a s' h.inv hs
  cases a with
  | proceed p ok =>
    obtain ⟨⟨ph, w⟩, hr, rfl⟩ := Option.map_eq_some_iff.mp hs
    refine ⟨hinv, ?_⟩
    simp only [State.goto]
    rw [Function.forall_update_iff s.phase fun _ x => ∀ o, x = .truncate o →
      (w.objects o).sized = false]
    refine ⟨?_, fun q hq o ho => ?_⟩
    · rintro o rfl
      exact proceed_truncate hr
    · -- two processes are not at the `ftruncate` of one object
      have hother : s.phase p ≠ .truncate o := by
        intro hp
        exact hq (h.inv.unique q p o (by rw [ho]; rfl) (by rw [hp]; rfl))
      have hknown := (h.inv.fits q).fresh o (by rw [ho]; rfl)
      exact (proceed_short hknown (h.short q o ho) hother hr).2.1
  | init p | close p | destroy p | die p =>
    simp only [step] at hs
    split at hs
    all_goals first
      | (simp at hs; done)
      | (obtain rfl := Option.some.inj hs; exact h.goto hinv (by simp))

omit [DecidableEq P] in
theorem init_truncateInv : TruncateInv (init : State P) := ⟨init_inv, by simp [init]⟩

/-- A creator was at `ftruncate`, and it failed, or the creator died there. -/
def LeftShort (b : Backend) (o : Nat) (s : State P) : Prop :=
  ∃ r q a, Reachable (step b) init r ∧ r.phase q = .truncate o ∧
    (a = .proceed q false ∨ a = .die q) ∧
    step b r a = some s

theorem LeftShort.short {b : Backend} {o : Nat} {s : State P} (h : LeftShort b o s) :
    Short o s := by
  obtain ⟨r, q, a, hreach, hq, ha, hs⟩ := h
  have hr : TruncateInv r := hreach.invariant init_truncateInv step_truncateInv
  have hknown := (hr.inv.fits q).fresh o (by rw [hq]; rfl)
  obtain ⟨ph, hph, rfl⟩ : ∃ ph, ph ≠ .truncate o ∧ s = r.goto q ph := by
    rcases ha with rfl | rfl
    · exact ⟨.unlinkShort o, by simp, by simpa [step, proceed, hq] using hs.symm⟩
    · exact ⟨.dead, by simp, by simpa [step, hq] using hs.symm⟩
  refine ⟨hknown, hr.short q o hq, ?_⟩
  simp only [State.goto]
  rw [Function.forall_update_iff r.phase fun _ x => x ≠ .truncate o]
  exact ⟨hph, fun q' hq' hp => hq' (hr.inv.unique q' q o (by rw [hp]; rfl) (by rw [hq]; rfl))⟩

/-- Who waits for the size of such an object waits for good, while no `fstat` fails; so does
everybody who waits when the `ftruncate` of the creator fails. -/
theorem short_waits_for_good {b : Backend} {o : Nat} {s t : State P} {as : List (Action P)} {p : P}
    (h : Short o s ∨ LeftShort b o s) (hp : s.phase p = .stat o) (hok : Along (step b) StatOk s as)
    (hrun : exec (step b) s as = some t) : t.phase p = .stat o ∨ t.phase p = .dead := by
  have hshort : Short o s := h.elim id LeftShort.short
  have hinv : Short o t ∧ (t.phase p = .stat o ∨ t.phase p = .dead) := by
    refine invariant (I := fun t => Short o t ∧ (t.phase p = .stat o ∨ t.phase p = .dead)) ?_
      ⟨hshort, Or.inl hp⟩
      hok hrun
    rintro t a t' ⟨ht, hphase⟩ hok hs
    exact ⟨step_short ht hs, step_waiting ht hphase hok hs⟩
  exact hinv.2

/-- A second process opens the object before the creator comes to `ftruncate`. -/
def openedShort : List (Action Bool) :=
  [.init false, .proceed false true, .init true, .proceed true true, .proceed true true]

def beforeTruncate : State Bool := (exec (step .posix) init openedShort).getD init

/-- `ftruncate` has failed. -/
def leftInLoop : State Bool := (step .posix beforeTruncate (.proceed false false)).getD init

theorem failedTruncate_waits_for_good :
    leftInLoop.phase true = .stat 0 ∧
      ∃ t, exec (step .posix) leftInLoop
        (.proceed false true :: List.replicate 3 (.proceed true true)) = some t ∧
        t.world.name = none ∧ (t.phase true = .stat 0 ∨ t.phase true = .dead) := by
  have hleft : LeftShort .posix 0 leftInLoop :=
    ⟨beforeTruncate, false, .proceed false false, ⟨openedShort, rfl⟩, rfl, Or.inl rfl, rfl⟩
  refine ⟨rfl, _, rfl, rfl, ?_⟩
  refine short_waits_for_good (b := .posix) (Or.inr hleft) rfl ?_
    (show exec _ _ (.proceed false true :: List.replicate 3 (.proceed true true)) = _ from rfl)
  exact along_of_forall_mem (by simp [StatOk]) _

end StudyC.Shm.Attach
