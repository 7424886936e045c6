import Mathlib.Data.Finset.Card
import Mathlib.Logic.Function.Basic

/-!
# How many threads are in a phase

A function gives the phase of each of any number of threads. A tally is the number of those in a
phase of some kind, if there are finitely many, and a thread that moves changes it by one at most.
-/

namespace Tally

variable {T α : Type} {P : α → Prop} {phase : T → α} {n : Nat}

def Counts (P : α → Prop) (phase : T → α) (n : Nat) : Prop :=
  ∃ threads : Finset T, (∀ t, t ∈ threads ↔ P (phase t)) ∧ threads.card = n

theorem counts_zero (h : ∀ t, ¬ P (phase t)) : Counts P phase 0 :=
  ⟨∅, fun t => iff_of_false (Finset.notMem_empty t) (h t), Finset.card_empty⟩

/-- There is room in `b` for `a` and one for each thread of the kind. -/
def Covered (P : α → Prop) (phase : T → α) (a b : Nat) : Prop := ∃ n, Counts P phase n ∧ a + n ≤ b

theorem covered_of_none (h : ∀ t, ¬ P (phase t)) {a b : Nat} (hle : a ≤ b) : Covered P phase a b :=
  ⟨0, counts_zero h, hle⟩

theorem Covered.le {a b : Nat} (h : Covered P phase a b) : a ≤ b := by
  obtain ⟨n, -, hle⟩ := h
  omega

variable [DecidableEq T] {t : T} {x : α}

theorem Counts.enter (h : Counts P phase n) (hout : ¬ P (phase t)) (hin : P x) :
    Counts P (Function.update phase t x) (n + 1) := by
  obtain ⟨threads, hmem, rfl⟩ := h
  refine ⟨insert t threads, ?_, Finset.card_insert_of_notMem (mt (hmem t).mp hout)⟩
  intro u
  by_cases hu : u = t
  · subst hu
    simp [hin]
  · simp [hu, hmem]

theorem Counts.leave (h : Counts P phase n) (hin : P (phase t)) (hout : ¬ P x) :
    ∃ m, n = m + 1 ∧ Counts P (Function.update phase t x) m := by
  obtain ⟨threads, hmem, rfl⟩ := h
  refine ⟨(threads.erase t).card, (Finset.card_erase_add_one ((hmem t).mpr hin)).symm,
    threads.erase t, ?_, rfl⟩
  intro u
  by_cases hu : u = t
  · subst hu
    simp [hout]
  · simp [hu, hmem]

theorem Counts.stay (h : Counts P phase n) (hiff : P x ↔ P (phase t)) :
    Counts P (Function.update phase t x) n := by
  obtain ⟨threads, hmem, hcard⟩ := h
  refine ⟨threads, ?_, hcard⟩
  intro u
  by_cases hu : u = t
  · subst hu
    simp [hiff, hmem]
  · simp [hu, hmem]

theorem Covered.enter {a b : Nat} (h : Covered P phase a b) (hout : ¬ P (phase t)) (hin : P x) :
    Covered P (Function.update phase t x) a (b + 1) := by
  obtain ⟨n, hn, hle⟩ := h
  exact ⟨n + 1, hn.enter hout hin, by omega⟩

theorem Covered.leave {a b : Nat} (h : Covered P phase a b) (hin : P (phase t)) (hout : ¬ P x)
    {c : Nat} (hc : c ≤ a + 1) : Covered P (Function.update phase t x) c b := by
  obtain ⟨n, hn, hle⟩ := h
  obtain ⟨m, rfl, hm⟩ := hn.leave hin hout
  exact ⟨m, hm, by omega⟩

theorem Covered.stay {a b : Nat} (h : Covered P phase a b) (hiff : P x ↔ P (phase t)) {c : Nat}
    (hc : b ≤ c) : Covered P (Function.update phase t x) a c := by
  obtain ⟨n, hn, hle⟩ := h
  exact ⟨n, hn.stay hiff, by omega⟩

end Tally
