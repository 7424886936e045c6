import Mathlib.Tactic.Common

/-!
# Runs of a step function

A system is a step function `σ → α → Option σ`. The action picks the thread that moves and
resolves its choices, and `none` says that the action is not enabled.
-/

namespace Runs

variable {σ α : Type} {step : σ → α → Option σ}

/-- The state after a run, if every action of it is enabled. -/
def exec (step : σ → α → Option σ) : σ → List α → Option σ
  | s, [] => some s
  | s, a :: as => (step s a).bind fun s' => exec step s' as

/-- `P` holds of every step of the run, on the state before the step. -/
def Along (step : σ → α → Option σ) (P : σ → α → Prop) : σ → List α → Prop
  | _, [] => True
  | s, a :: as => P s a ∧ ∀ s', step s a = some s' → Along step P s' as

def Reachable (step : σ → α → Option σ) (init s : σ) : Prop := ∃ as, exec step init as = some s

instance decidableAlong {P : σ → α → Prop} [∀ s a, Decidable (P s a)] :
    ∀ s as, Decidable (Along step P s as)
  | _, [] => .isTrue trivial
  | s, a :: as => match h : step s a with
    | none => decidable_of_iff (P s a) ⟨fun hp => ⟨hp, by simp [h]⟩, And.left⟩
    | some s' =>
      have : Decidable (Along step P s' as) := decidableAlong s' as
      decidable_of_iff (P s a ∧ Along step P s' as) (by simp [Along, h])

theorem exec_cons {s t : σ} {a : α} {as : List α} :
    exec step s (a :: as) = some t ↔ ∃ s', step s a = some s' ∧ exec step s' as = some t := by
  simp [exec, Option.bind_eq_some_iff]

theorem exec_append (s : σ) (as bs : List α) :
    exec step s (as ++ bs) = (exec step s as).bind fun t => exec step t bs := by
  induction as generalizing s with
  | nil => rfl
  | cons a as ih => simp [exec, ih, Option.bind_assoc]

/-- What every step that meets `P` keeps, holds after every run that meets `P`. -/
theorem invariant {P : σ → α → Prop} {I : σ → Prop}
    (hstep : ∀ s a s', I s → P s a → step s a = some s' → I s') {s t : σ} {as : List α}
    (hinv : I s) (halong : Along step P s as) (hrun : exec step s as = some t) : I t := by
  induction as generalizing s with
  | nil =>
    simp only [exec, Option.some.injEq] at hrun
    exact hrun ▸ hinv
  | cons a as ih =>
    obtain ⟨s', hs, hrest⟩ := exec_cons.mp hrun
    exact ih (hstep s a s' hinv halong.1 hs) (halong.2 s' hs) hrest

theorem along_of_forall_mem {P : σ → α → Prop} {as : List α} (h : ∀ a ∈ as, ∀ s, P s a) (s : σ) :
    Along step P s as := by
  induction as generalizing s with
  | nil => trivial
  | cons a as ih => exact ⟨h a (.head as) s, fun s' _ => ih (fun b hb => h b (.tail a hb)) s'⟩

theorem along_of_forall {P : σ → α → Prop} (h : ∀ s a, P s a) (s : σ) (as : List α) :
    Along step P s as :=
  along_of_forall_mem (fun a _ s => h s a) s

theorem Along.and {P Q : σ → α → Prop} {s : σ} {as : List α} (hp : Along step P s as)
    (hq : Along step Q s as) : Along step (fun s a => P s a ∧ Q s a) s as := by
  induction as generalizing s with
  | nil => trivial
  | cons a as ih => exact ⟨⟨hp.1, hq.1⟩, fun s' hs => ih (hp.2 s' hs) (hq.2 s' hs)⟩

theorem Along.last {P : σ → α → Prop} {s t : σ} {as : List α} {b : α}
    (h : Along step P s (as ++ [b])) (hrun : exec step s as = some t) : P t b := by
  induction as generalizing s with
  | nil =>
    obtain rfl := Option.some.inj hrun
    exact h.1
  | cons a as ih =>
    obtain ⟨s', hs, hrest⟩ := exec_cons.mp hrun
    exact ih (h.2 s' hs) hrest

theorem Along.concat {P : σ → α → Prop} {s : σ} {as : List α} {b : α} (h : Along step P s as)
    (hlast : ∀ t, exec step s as = some t → P t b) : Along step P s (as ++ [b]) := by
  induction as generalizing s with
  | nil => exact ⟨hlast s rfl, fun _ _ => trivial⟩
  | cons a as ih =>
    refine ⟨h.1, fun s' hs => ih (h.2 s' hs) ?_⟩
    intro t hrun
    exact hlast t (exec_cons.mpr ⟨s', hs, hrun⟩)

theorem Along.mono {P Q : σ → α → Prop} {I : σ → Prop}
    (hstep : ∀ s a s', I s → P s a → step s a = some s' → I s')
    (himp : ∀ s a, I s → P s a → Q s a) {s : σ} {as : List α} (hinv : I s)
    (h : Along step P s as) : Along step Q s as := by
  induction as generalizing s with
  | nil => trivial
  | cons a as ih =>
    exact ⟨himp s a hinv h.1, fun s' hs => ih (hstep s a s' hinv h.1 hs) (h.2 s' hs)⟩

theorem Reachable.invariant {I : σ → Prop} {init s : σ} (hinit : I init)
    (hstep : ∀ s a s', I s → step s a = some s' → I s') (h : Reachable step init s) : I s := by
  obtain ⟨as, has⟩ := h
  exact Runs.invariant (P := fun _ _ => True) (fun s a s' hi _ hs => hstep s a s' hi hs) hinit
    (along_of_forall (fun _ _ => trivial) _ _) has

/-- Two step properties that agree under an invariant hold along the same runs, if the steps that
meet one of them keep the invariant. -/
theorem along_congr {P Q : σ → α → Prop} {I : σ → Prop}
    (hstep : ∀ s a s', I s → Q s a → step s a = some s' → I s')
    (hiff : ∀ s a, I s → (P s a ↔ Q s a)) {s : σ} (hinv : I s) (as : List α) :
    Along step P s as ↔ Along step Q s as := by
  induction as generalizing s with
  | nil => exact Iff.rfl
  | cons a as ih =>
    simp only [Along, hiff s a hinv]
    refine and_congr_right fun hq => forall_congr' fun s' => imp_congr_right fun hs => ?_
    exact ih (hstep s a s' hinv hq hs)

/-- A run to the goal, from steps that meet `P`, keep `I` and make a measure smaller until the goal
is reached. -/
theorem exists_run_of_progress {P : α → Prop} {I G : σ → Prop} (measure : σ → Nat)
    (hprogress : ∀ s, I s → ¬ G s → ∃ a s', P a ∧ step s a = some s' ∧
      measure s' < measure s ∧ I s')
    {s : σ} (hinv : I s) : ∃ as t, (∀ a ∈ as, P a) ∧ exec step s as = some t ∧ G t ∧ I t := by
  induction hn : measure s using Nat.strongRecOn generalizing s with
  | _ n ih =>
    by_cases hgoal : G s
    · exact ⟨[], s, by simp, rfl, hgoal, hinv⟩
    · obtain ⟨a, s', ha, hs, hlt, hinv'⟩ := hprogress s hinv hgoal
      obtain ⟨as, t, has, hrun, ht⟩ := ih _ (hn ▸ hlt) hinv' rfl
      refine ⟨a :: as, t, ?_, exec_cons.mpr ⟨s', hs, hrun⟩, ht⟩
      rintro b (_ | ⟨_, hb⟩)
      · exact ha
      · exact has b hb

end Runs
