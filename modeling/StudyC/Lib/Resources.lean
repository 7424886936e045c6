import StudyC.Lib.Runs

/-!
# Programs that hold resources

A program acquires resources, uses them and releases them, and any of its calls may fail. It can
mark a resource in a variable and release it later on if it is marked. A resource may need others as
long as it is held, as a thread needs what it works on. It is a fault to use or release what is not
held, to acquire what is held already, to acquire something without what it needs, and to take away
what another resource still needs. A fault does not stop the program.

* `clean_of_check`: a program that passes `check` faults only where its rules excuse it, whatever
  fails, and returns with what it may leave behind.
-/

open Runs

namespace Resources

/-- `acquire` and `attempt` are calls that may fail; `hold` always succeeds. `rounds` is a loop of
any number of rounds that use the given resources. `discard` takes away what may not be there, and
`tryRelease` may fail and leave the resource behind. -/
inductive Prog (R : Type) where
  | ret (code : Nat)
  | attempt (ok fail : Prog R)
  | acquire (r : R) (ok fail : Prog R)
  | hold (r : R) (next : Prog R)
  | use (rs : List R) (next : Prog R)
  | rounds (rs : List R) (next : Prog R)
  | release (r : R) (next : Prog R)
  | tryRelease (r : R) (next : Prog R)
  | discard (r : R) (next : Prog R)
  | mark (r : R) (next : Prog R)
  | clear (r : R) (next : Prog R)
  | releaseIfMarked (r : R) (next : Prog R)

structure Config (R : Type) where
  prog : Prog R
  held : List R
  marks : List R
  /-- What the faults were about. -/
  faults : List R
  /-- What was not released when its release failed. -/
  stuck : List R

def start {R : Type} (p : Prog R) : Config R := ⟨p, [], [], [], []⟩

/-- What a program is checked against. -/
structure Rules (R : Type) where
  /-- What has to be held as long as a resource is. -/
  needs : R → List R
  /-- What may be used without being held. -/
  excused : List R
  /-- What may stay when its release fails. -/
  mayStay : List R
  /-- What may be held at the end. -/
  left : List R

variable {R : Type} [DecidableEq R]

def MayAcquire (needs : R → List R) (held : List R) (r : R) : Prop :=
  r ∉ held ∧ ∀ x ∈ needs r, x ∈ held

def missing (held rs : List R) : List R := rs.filter (· ∉ held)

def MayDiscard (needs : R → List R) (held : List R) (r : R) : Prop := ∀ x ∈ held, r ∉ needs x

def MayRelease (needs : R → List R) (held : List R) (r : R) : Prop :=
  r ∈ held ∧ MayDiscard needs held r

instance (needs : R → List R) (held : List R) (r : R) : Decidable (MayAcquire needs held r) :=
  inferInstanceAs (Decidable (_ ∧ _))

instance (needs : R → List R) (held : List R) (r : R) : Decidable (MayDiscard needs held r) :=
  inferInstanceAs (Decidable (∀ x ∈ held, r ∉ needs x))

instance (needs : R → List R) (held : List R) (r : R) : Decidable (MayRelease needs held r) :=
  inferInstanceAs (Decidable (_ ∧ _))

def breach (may : Prop) [Decidable may] (r : R) : List R := if may then [] else [r]

/-- The program goes on with other resources, after the given faults. -/
def Config.go (c : Config R) (faults : List R) (p : Prog R) (held : List R) : Config R :=
  { c with prog := p, held := held, faults := faults ++ c.faults }

/-- One call, and whether it succeeds; a round of a loop is followed by another one if it does. -/
def step (needs : R → List R) (c : Config R) (ok : Bool) : Option (Config R) :=
  match c.prog with
  | .ret _ => none
  | .attempt p q => some { c with prog := if ok then p else q }
  | .acquire r p q =>
    if ok then some (c.go (breach (MayAcquire needs c.held r) r) p (r :: c.held))
    else some { c with prog := q }
  | .hold r p => some (c.go (breach (MayAcquire needs c.held r) r) p (r :: c.held))
  | .use rs p => some (c.go (missing c.held rs) p c.held)
  | .rounds rs p => some (c.go (missing c.held rs) (if ok then .rounds rs p else p) c.held)
  | .release r p => some (c.go (breach (MayRelease needs c.held r) r) p (c.held.erase r))
  | .tryRelease r p =>
    let c' := c.go (breach (MayRelease needs c.held r) r) p (c.held.erase r)
    some (if ok then c' else { c' with stuck := r :: c.stuck })
  | .discard r p => some (c.go (breach (MayDiscard needs c.held r) r) p (c.held.erase r))
  | .mark r p => some { c with prog := p, marks := r :: c.marks }
  | .clear r p => some { c with prog := p, marks := c.marks.filter (· ≠ r) }
  | .releaseIfMarked r p =>
    if r ∈ c.marks then some (c.go (breach (MayRelease needs c.held r) r) p (c.held.erase r))
    else some { c with prog := p }

/-- Follows all paths of a program at once. -/
def check (rules : Rules R) : List R → List R → Prog R → Bool
  | held, _, .ret _ => decide (held ⊆ rules.left)
  | held, marks, .attempt p q => check rules held marks p && check rules held marks q
  | held, marks, .acquire r p q =>
    decide (MayAcquire rules.needs held r) && check rules (r :: held) marks p &&
      check rules held marks q
  | held, marks, .hold r p =>
    decide (MayAcquire rules.needs held r) && check rules (r :: held) marks p
  | held, marks, .use rs p | held, marks, .rounds rs p =>
    decide (missing held rs ⊆ rules.excused) && check rules held marks p
  | held, marks, .release r p =>
    decide (MayRelease rules.needs held r) && check rules (held.erase r) marks p
  | held, marks, .tryRelease r p =>
    decide (MayRelease rules.needs held r ∧ r ∈ rules.mayStay) && check rules (held.erase r) marks p
  | held, marks, .discard r p =>
    decide (MayDiscard rules.needs held r) && check rules (held.erase r) marks p
  | held, marks, .mark r p => check rules held (r :: marks) p
  | held, marks, .clear r p => check rules held (marks.filter (· ≠ r)) p
  | held, marks, .releaseIfMarked r p =>
    if r ∈ marks then decide (MayRelease rules.needs held r) && check rules (held.erase r) marks p
    else check rules held marks p

/-- What is left of the program passes the check with what is held and marked. -/
structure Checked (rules : Rules R) (c : Config R) : Prop where
  faults : c.faults ⊆ rules.excused
  stuck : c.stuck ⊆ rules.mayStay
  rest : check rules c.held c.marks c.prog = true

section
variable {rules : Rules R}

theorem Checked.goto {c : Config R} (h : Checked rules c) {p : Prog R}
    (hrest : check rules c.held c.marks p = true) : Checked rules { c with prog := p } :=
  ⟨h.faults, h.stuck, hrest⟩

theorem Checked.go {c : Config R} (h : Checked rules c) {faults : List R} {p : Prog R}
    {held : List R} (hfaults : faults ⊆ rules.excused) (hrest : check rules held c.marks p = true) :
    Checked rules (c.go faults p held) :=
  ⟨List.append_subset.mpr ⟨hfaults, h.faults⟩, h.stuck, hrest⟩

theorem Checked.may {c : Config R} (h : Checked rules c) {may : Prop} [Decidable may] {r : R}
    {p : Prog R} {held : List R} (hrest : (decide may && check rules held c.marks p) = true) :
    Checked rules (c.go (breach may r) p held) := by
  obtain ⟨hmay, hrest⟩ := Bool.and_eq_true_iff.mp hrest
  exact h.go (by simp [breach, of_decide_eq_true hmay]) hrest

theorem step_checked (c : Config R) (ok : Bool) (c' : Config R) (h : Checked rules c)
    (hs : step rules.needs c ok = some c') : Checked rules c' := by
  have hrest := h.rest
  unfold step at hs
  split at hs <;> rename_i hp <;> rw [hp] at hrest
  · simp at hs
  · -- `attempt`
    simp only [check, Bool.and_eq_true] at hrest
    obtain rfl := Option.some.inj hs
    cases ok with
    | true => exact h.goto hrest.1
    | false => exact h.goto hrest.2
  · -- `acquire`
    obtain ⟨hok, hfail⟩ := Bool.and_eq_true_iff.mp hrest
    split at hs <;> obtain rfl := Option.some.inj hs
    · exact h.may hok
    · exact h.goto hfail
  · -- `hold`
    obtain rfl := Option.some.inj hs
    exact h.may hrest
  · -- `use`
    simp only [check, Bool.and_eq_true, decide_eq_true_eq] at hrest
    obtain rfl := Option.some.inj hs
    exact h.go hrest.1 hrest.2
  · -- `rounds`: the loop itself passes the check again
    have hloop := hrest
    simp only [check, Bool.and_eq_true, decide_eq_true_eq] at hrest
    obtain rfl := Option.some.inj hs
    refine h.go hrest.1 ?_
    cases ok with
    | true => exact hloop
    | false => exact hrest.2
  · -- `release`
    obtain rfl := Option.some.inj hs
    exact h.may hrest
  · -- `tryRelease`
    simp only [check, Bool.and_eq_true, decide_eq_true_eq] at hrest
    obtain ⟨⟨hmay, hstay⟩, hrest⟩ := hrest
    have hgo := h.may (r := ‹R›) (Bool.and_eq_true_iff.mpr ⟨decide_eq_true hmay, hrest⟩)
    obtain rfl := Option.some.inj hs
    cases ok with
    | true => exact hgo
    | false => exact ⟨hgo.faults, List.cons_subset.mpr ⟨hstay, h.stuck⟩, hgo.rest⟩
  · -- `discard`
    obtain rfl := Option.some.inj hs
    exact h.may hrest
  · obtain rfl := Option.some.inj hs
    exact ⟨h.faults, h.stuck, hrest⟩
  · obtain rfl := Option.some.inj hs
    exact ⟨h.faults, h.stuck, hrest⟩
  · -- `releaseIfMarked`
    simp only [check] at hrest
    split at hs <;> rename_i hmarked <;> obtain rfl := Option.some.inj hs
    · rw [if_pos hmarked] at hrest
      exact h.may hrest
    · rw [if_neg hmarked] at hrest
      exact h.goto hrest

theorem clean_of_check {p : Prog R} (h : check rules [] [] p = true) {c : Config R}
    (hc : Reachable (step rules.needs) (start p) c) :
    c.faults ⊆ rules.excused ∧ c.stuck ⊆ rules.mayStay ∧ ∀ code, c.prog = .ret code →
      c.held ⊆ rules.left := by
  have hchecked : Checked rules c :=
    hc.invariant ⟨List.nil_subset _, List.nil_subset _, h⟩ step_checked
  refine ⟨hchecked.faults, hchecked.stuck, fun code hcode => ?_⟩
  have hrest := hchecked.rest
  rw [hcode] at hrest
  exact of_decide_eq_true hrest

end

end Resources
