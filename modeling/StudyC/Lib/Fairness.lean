import Mathlib.Order.WellFounded
import StudyC.Lib.Runs

/-!
# Fair runs

Runs without an end, in which the actions of several threads and of the environment come in any
order. `mover` says which thread an action is a step of; the actions of the environment belong to
none. A thread that can take a step from some point on takes one.

* `InfRun.reaches`: a goal is reached if in every state before it some thread can lower a measure
  that nobody raises.
-/

namespace Runs

variable {σ α T : Type} {step : σ → α → Option σ} {mover : σ → α → Option T}

/-- Nothing may happen at some of the points. -/
structure InfRun (step : σ → α → Option σ) where
  state : Nat → σ
  act : Nat → Option α
  move : ∀ n a, act n = some a → step (state n) a = some (state (n + 1))
  rest : ∀ n, act n = none → state (n + 1) = state n

def Enabled (step : σ → α → Option σ) (mover : σ → α → Option T) (t : T) (s : σ) : Prop :=
  ∃ a, mover s a = some t ∧ (step s a).isSome = true

namespace InfRun

/-- Weak fairness for every thread. -/
def Fair (r : InfRun step) (mover : σ → α → Option T) : Prop :=
  ∀ t n, (∀ m, n ≤ m → Enabled step mover t (r.state m)) →
    ∃ m a, n ≤ m ∧ r.act m = some a ∧ mover (r.state m) a = some t

/-- `P` holds of every step of the run from point `n` on. -/
def Meets (r : InfRun step) (n : Nat) (P : σ → α → Prop) : Prop :=
  ∀ m a, n ≤ m → r.act m = some a → P (r.state m) a

theorem Meets.later {r : InfRun step} {n : Nat} {P : σ → α → Prop} (h : r.Meets n P) {m : Nat}
    (hm : n ≤ m) : r.Meets m P :=
  fun k a hk ha => h k a (le_trans hm hk) ha

theorem invariant {P : σ → α → Prop} {I : σ → Prop}
    (hstep : ∀ s a s', I s → P s a → step s a = some s' → I s') (r : InfRun step) {n : Nat}
    (hmeets : r.Meets n P) (hinv : I (r.state n)) {m : Nat} (hm : n ≤ m) : I (r.state m) := by
  induction m, hm using Nat.le_induction with
  | base => exact hinv
  | succ m hm ih =>
    cases ha : r.act m with
    | none => rwa [r.rest m ha]
    | some a => exact hstep _ a _ ih (hmeets m a hm ha) (r.move m a ha)

/-- The rule of the helpful thread: while the goal is not reached, the thread `helpful s` can take a
step, its steps lower the measure, and the other steps lower it or leave it and the helpful thread
as they are. -/
theorem reaches {M : Type} [Preorder M] [WellFoundedLT M] {P : σ → α → Prop} {I G : σ → Prop}
    (measure : σ → M) (helpful : σ → T)
    (hlive : ∀ s, I s → ¬ G s → Enabled step mover (helpful s) s)
    (hstep : ∀ s a s', I s → ¬ G s → P s a → step s a = some s' → I s' ∧
      (measure s' < measure s ∨ measure s' = measure s ∧ helpful s' = helpful s ∧
      mover s a ≠ some (helpful s)))
    (r : InfRun step) (hfair : r.Fair mover) {n : Nat} (hmeets : r.Meets n P)
    (hinv : I (r.state n)) : ∃ m, n ≤ m ∧ G (r.state m) := by
  induction hmeasure : measure (r.state n) using WellFoundedLT.induction generalizing n with
  | _ x ih =>
    by_contra hnone
    have hgoal : ∀ m, n ≤ m → ¬ G (r.state m) := fun m hm hg => hnone ⟨m, hm, hg⟩
    -- a lower measure later on would reach the goal
    have hlow : ∀ m, n ≤ m → I (r.state m) → ¬ measure (r.state m) < measure (r.state n) := by
      intro m hm hi hlt
      obtain ⟨k, hk, hg⟩ := ih _ (hmeasure ▸ hlt) (hmeets.later hm) hi rfl
      exact hgoal k (le_trans hm hk) hg
    have hstays : ∀ m, n ≤ m → I (r.state m) ∧ measure (r.state m) = measure (r.state n) ∧
        helpful (r.state m) = helpful (r.state n) := by
      intro m hm
      induction m, hm using Nat.le_induction with
      | base => exact ⟨hinv, rfl, rfl⟩
      | succ m hm ihm =>
        obtain ⟨hi, hm', hh⟩ := ihm
        cases ha : r.act m with
        | none => rw [r.rest m ha]; exact ⟨hi, hm', hh⟩
        | some a =>
          obtain ⟨hi', hlt | ⟨heq, hsame, -⟩⟩ :=
            hstep _ a _ hi (hgoal m hm) (hmeets m a hm ha) (r.move m a ha)
          · exact absurd (hm' ▸ hlt) (hlow (m + 1) (le_trans hm (Nat.le_succ m)) hi')
          · exact ⟨hi', heq.trans hm', hsame.trans hh⟩
    obtain ⟨m, a, hm, ha, hmover⟩ := hfair (helpful (r.state n)) n fun m hm => by
      obtain ⟨hi, -, hh⟩ := hstays m hm
      rw [← hh]
      exact hlive _ hi (hgoal m hm)
    obtain ⟨hi, hm', hh⟩ := hstays m hm
    obtain ⟨hi', hlt | ⟨-, -, hne⟩⟩ :=
      hstep _ a _ hi (hgoal m hm) (hmeets m a hm ha) (r.move m a ha)
    · exact hlow (m + 1) (le_trans hm (Nat.le_succ m)) hi' (hm' ▸ hlt)
    · exact hne (by rw [hmover, hh])

/-! ## Runs that come to an end -/

theorem exec_take {s t : σ} {as : List α} (h : exec step s as = some t) (n : Nat) :
    ∃ u, exec step s (as.take n) = some u ∧ exec step u (as.drop n) = some t := by
  rw [← List.take_append_drop n as, exec_append] at h
  obtain ⟨u, hu, hrest⟩ := Option.bind_eq_some_iff.mp h
  exact ⟨u, hu, hrest⟩

/-- A finite run, and nothing after it. -/
def ofList {s t : σ} {as : List α} (h : exec step s as = some t) : InfRun step where
  state n := (exec step s (as.take n)).getD t
  act n := as[n]?
  move n a ha := by
    obtain ⟨u, hu, hrest⟩ := exec_take h n
    have hlt : n < as.length := (List.getElem?_eq_some_iff.mp ha).1
    obtain ⟨v, hv, -⟩ := exec_take h (n + 1)
    have hnext : as.take (n + 1) = as.take n ++ [a] := by
      rw [List.take_add_one, ha]
      rfl
    rw [hnext, exec_append, hu] at hv
    rw [hu, hnext, exec_append, hu]
    obtain ⟨w, hw, hlast⟩ := exec_cons.mp hv
    obtain rfl := Option.some.inj hlast
    simp [exec, hw]
  rest n ha := by
    have hlen : as.length ≤ n := List.getElem?_eq_none_iff.mp ha
    rw [List.take_of_length_le hlen, List.take_of_length_le (Nat.le_succ_of_le hlen)]

theorem ofList_state {s t u : σ} {as : List α} (h : exec step s as = some t) {n : Nat}
    (hu : exec step s (as.take n) = some u) : (ofList h).state n = u := by
  simp [ofList, hu]

theorem ofList_end {s t : σ} {as : List α} (h : exec step s as = some t) {n : Nat}
    (hn : as.length ≤ n) : (ofList h).state n = t :=
  ofList_state h (by rw [List.take_of_length_le hn, h])

theorem ofList_fair {s t : σ} {as : List α} (h : exec step s as = some t)
    (hend : ∀ x, ¬ Enabled step mover x t) : (ofList h).Fair mover := by
  intro x n henabled
  have hlast := henabled (max n as.length) (le_max_left _ _)
  rw [ofList_end h (le_max_right _ _)] at hlast
  exact absurd hlast (hend x)

theorem along_drop {P : σ → α → Prop} {s u : σ} {as : List α} {n : Nat} (halong : Along step P s as)
    (hu : exec step s (as.take n) = some u) : Along step P u (as.drop n) := by
  induction as generalizing s n with
  | nil => simp [Along]
  | cons a as ih =>
    cases n with
    | zero =>
      obtain rfl := Option.some.inj hu
      exact halong
    | succ n =>
      obtain ⟨s', hs, hrest⟩ := exec_cons.mp hu
      exact ih (halong.2 s' hs) hrest

theorem ofList_meets {P : σ → α → Prop} {s t : σ} {as : List α} (h : exec step s as = some t)
    {n : Nat} {u : σ} (hu : exec step s (as.take n) = some u)
    (halong : Along step P u (as.drop n)) : (ofList h).Meets n P := by
  intro m a hm ha
  obtain ⟨k, rfl⟩ := Nat.exists_eq_add_of_le hm
  obtain ⟨hlt, rfl⟩ := List.getElem?_eq_some_iff.mp ha
  obtain ⟨v, hv, -⟩ := exec_take h (n + k)
  have hrest : exec step u ((as.drop n).take k) = some v := by
    rwa [List.take_add, exec_append, hu] at hv
  have hdrop := along_drop halong hrest
  rw [List.drop_drop, List.drop_eq_getElem_cons hlt] at hdrop
  simpa [ofList, hv] using hdrop.1

end InfRun

end Runs
