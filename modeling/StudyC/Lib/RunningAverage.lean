import Mathlib.Algebra.GroupWithZero.Nat
import Mathlib.Data.List.DropRight
import Mathlib.Tactic.Common

/-!
# Averages that are updated sample by sample

The new average is the old one times the count plus the sample, divided by the new count and rounded
down. What the divisions drop is never made up for, and the sum of it is how far the average falls
behind.
-/

namespace RunningAverage

/-- The average of `n + 1` samples from the average of `n`. -/
def next (avg n x : Nat) : Nat := (avg * n + x) / (n + 1)

def average (xs : List Nat) : Nat := (xs.foldl (fun s x => (next s.1 s.2 x, s.2 + 1)) (0, 0)).1

theorem foldl_next_count (xs : List Nat) :
    (xs.foldl (fun s x => (next s.1 s.2 x, s.2 + 1)) (0, 0)).2 = xs.length := by
  induction xs using List.reverseRecOn with
  | nil => rfl
  | append_singleton xs x ih => simp [List.foldl_append, ih]

theorem average_concat (xs : List Nat) (x : Nat) :
    average (xs ++ [x]) = next (average xs) xs.length x := by
  simp [average, List.foldl_append, foldl_next_count]

/-! ## Bounds -/

theorem le_next {m avg n x : Nat} (havg : n ≠ 0 → m ≤ avg) (hx : m ≤ x) : m ≤ next avg n x := by
  unfold next
  rw [Nat.le_div_iff_mul_le (Nat.succ_pos n), Nat.mul_succ]
  rcases eq_or_ne n 0 with rfl | hn
  · simpa using hx
  · exact Nat.add_le_add (Nat.mul_le_mul_right n (havg hn)) hx

theorem next_le {m avg n x : Nat} (havg : n ≠ 0 → avg ≤ m) (hx : x ≤ m) : next avg n x ≤ m := by
  unfold next
  apply Nat.div_le_of_le_mul
  rw [Nat.succ_mul, Nat.mul_comm n m]
  rcases eq_or_ne n 0 with rfl | hn
  · simpa using hx
  · exact Nat.add_le_add (Nat.mul_le_mul_right n (havg hn)) hx

theorem average_replicate {k : Nat} (hk : k ≠ 0) (m : Nat) : average (List.replicate k m) = m := by
  induction k with
  | zero => contradiction
  | succ k ih =>
    rw [List.replicate_succ', average_concat, List.length_replicate]
    apply Nat.le_antisymm
    · exact next_le (fun hk => (ih hk).le) (Nat.le_refl m)
    · exact le_next (fun hk => (ih hk).ge) (Nat.le_refl m)

/-! ## Drift -/

structure Loss where
  count : Nat
  sum : Nat
  drift : Nat

/-- The drift grows to the next number that leaves a multiple of the count. -/
def Loss.record (l : Loss) (x : Nat) : Loss :=
  ⟨l.count + 1, l.sum + x, l.drift + (l.sum + x - l.drift) % (l.count + 1)⟩

def loss (xs : List Nat) : Loss := xs.foldl Loss.record ⟨0, 0, 0⟩

def drift (xs : List Nat) : Nat := (loss xs).drift

theorem loss_concat (xs : List Nat) (x : Nat) : loss (xs ++ [x]) = (loss xs).record x := by
  simp [loss, List.foldl_append]

theorem loss_count_sum (xs : List Nat) : (loss xs).count = xs.length ∧ (loss xs).sum = xs.sum := by
  induction xs using List.reverseRecOn with
  | nil => exact ⟨rfl, rfl⟩
  | append_singleton xs x ih => simp [loss_concat, Loss.record, ih]

theorem drift_concat (xs : List Nat) (x : Nat) :
    drift (xs ++ [x]) = drift xs + (xs.sum + x - drift xs) % (xs.length + 1) := by
  obtain ⟨hcount, hsum⟩ := loss_count_sum xs
  rw [drift, loss_concat, Loss.record, hcount, hsum]
  rfl

theorem average_mul_add_drift (xs : List Nat) : average xs * xs.length + drift xs = xs.sum := by
  induction xs using List.reverseRecOn with
  | nil => rfl
  | append_singleton xs x ih =>
    have hdividend : xs.sum + x - drift xs = average xs * xs.length + x := by omega
    have hdivmod := Nat.div_add_mod (average xs * xs.length + x) (xs.length + 1)
    rw [average_concat, drift_concat, hdividend, next, List.length_append, List.length_singleton,
      List.sum_append, List.sum_singleton, Nat.mul_comm]
    omega

theorem average_mul_le_sum (xs : List Nat) : average xs * xs.length ≤ xs.sum := by
  have := average_mul_add_drift xs
  omega

theorem drift_le (xs : List Nat) : drift xs ≤ xs.length * (xs.length - 1) / 2 := by
  induction xs using List.reverseRecOn with
  | nil => exact Nat.le_refl 0
  | append_singleton xs x ih =>
    have hrest : (xs.sum + x - drift xs) % (xs.length + 1) ≤ xs.length :=
      Nat.le_of_lt_succ (Nat.mod_lt _ (Nat.succ_pos _))
    have htriangle : (xs.length + 1) * xs.length = xs.length * (xs.length - 1) + 2 * xs.length := by
      cases xs.length with
      | zero => rfl
      | succ k => rw [Nat.add_sub_cancel, Nat.mul_comm, Nat.mul_comm 2, ← Nat.mul_add]
    rw [drift_concat, List.length_append, List.length_singleton, Nat.add_sub_cancel, htriangle]
    omega

/-- The average is exact, up to rounding, as long as less than one unit a sample was dropped. -/
theorem average_eq_iff {xs : List Nat} (hne : xs ≠ []) :
    average xs = xs.sum / xs.length ↔ drift xs < xs.length := by
  have hpos : 0 < xs.length := List.length_pos_iff.mpr hne
  rw [← average_mul_add_drift xs, Nat.mul_comm, Nat.mul_add_div hpos, Nat.left_eq_add,
    Nat.div_eq_zero_iff]
  omega

theorem drift_eq_zero {xs : List Nat} (h : ∀ k ≤ xs.length, k ∣ (xs.take k).sum) :
    drift xs = 0 := by
  induction xs using List.reverseRecOn with
  | nil => rfl
  | append_singleton xs x ih =>
    have hbefore : drift xs = 0 := by
      refine ih fun k hk => ?_
      have hdvd := h k (by simp; omega)
      rwa [List.take_append_of_le_length hk] at hdvd
    have hlast := h (xs.length + 1) (by simp)
    rw [List.take_of_length_le (by simp), List.sum_append, List.sum_singleton] at hlast
    rw [drift_concat, hbefore, Nat.sub_zero, Nat.mod_eq_zero_of_dvd hlast]

theorem drift_lt_of_dvd {xs : List Nat} (hne : xs ≠ []) (h : ∀ k < xs.length, k ∣ (xs.take k).sum) :
    drift xs < xs.length := by
  obtain ⟨ys, y, rfl⟩ := List.eq_nil_or_concat' xs |>.resolve_left hne
  have hbefore : drift ys = 0 := by
    refine drift_eq_zero fun k hk => ?_
    have hdvd := h k (by simp; omega)
    rwa [List.take_append_of_le_length hk] at hdvd
  rw [drift_concat, hbefore, List.length_append, List.length_singleton, Nat.zero_add]
  exact Nat.mod_lt _ (Nat.succ_pos _)

end RunningAverage
