import StudyC.Lib.Runs

/-!
# Runs that stand for runs of a simpler system

`label` says which abstract actions a step stands for, any number of them. A relation that every
step keeps while the abstract system does these actions carries over to whole runs.
-/

namespace Runs

variable {σ τ α β : Type} {step : σ → α → Option σ} {absStep : τ → β → Option τ}

/-- The abstract actions that a run stands for. -/
def trace (step : σ → α → Option σ) (label : σ → α → List β) : σ → List α → List β
  | _, [] => []
  | s, a :: as => label s a ++ (step s a).elim [] fun s' => trace step label s' as

theorem trace_cons {label : σ → α → List β} {s s' : σ} {a : α} (hs : step s a = some s')
    (as : List α) : trace step label s (a :: as) = label s a ++ trace step label s' as := by
  simp [trace, hs]

theorem refines {P : σ → α → Prop} {R : σ → τ → Prop} {label : σ → α → List β}
    (hstep : ∀ s a s' t, R s t → P s a → step s a = some s' →
      ∃ t', exec absStep t (label s a) = some t' ∧ R s' t')
    {s s' : σ} {t : τ} {as : List α} (hrel : R s t) (halong : Along step P s as)
    (hrun : exec step s as = some s') :
    ∃ t', exec absStep t (trace step label s as) = some t' ∧ R s' t' := by
  induction as generalizing s t with
  | nil =>
    obtain rfl := Option.some.inj hrun
    exact ⟨t, rfl, hrel⟩
  | cons a as ih =>
    obtain ⟨mid, hmid, hrest⟩ := exec_cons.mp hrun
    obtain ⟨t₁, hrun₁, hrel₁⟩ := hstep s a mid t hrel halong.1 hmid
    obtain ⟨t₂, hrun₂, hrel₂⟩ := ih hrel₁ (halong.2 mid hmid) hrest
    refine ⟨t₂, ?_, hrel₂⟩
    rw [trace_cons hmid, exec_append, hrun₁]
    exact hrun₂

end Runs
