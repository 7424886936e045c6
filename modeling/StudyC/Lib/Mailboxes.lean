import Mathlib.Logic.Function.Basic
import Mathlib.Tactic.Common

/-!
# Mailboxes of bounded size

Every receiver has a mailbox, which takes a message while at most `limit` are waiting in it. Who
sends to a full one waits until its owner takes a message or closes it. What is sent to a closed one
is refused at once.
-/

namespace Mailboxes

structure State (C : Type) where
  limit : Nat
  unread : C → Nat
  closed : C → Bool

/-- What the owner of a mailbox does. -/
inductive Action (C : Type) where
  | take (c : C)
  | close (c : C)
  deriving DecidableEq

variable {C : Type}

def Action.owner : Action C → C
  | .take c | .close c => c

/-- Nothing is waiting, and nothing has ever been closed. -/
def State.empty (limit : Nat) : State C := ⟨limit, fun _ => 0, fun _ => false⟩

/-- The messages that have to go before a send to `c` returns. -/
def State.excess (s : State C) (c : C) : Nat := if s.closed c then 0 else s.unread c - s.limit

/-- A send to `c` returns at once. -/
def State.accepts (s : State C) (c : C) : Bool := decide (s.excess c = 0)

theorem accepts_of_excess {s : State C} {c : C} (h : ¬ 0 < s.excess c) : s.accepts c = true :=
  decide_eq_true (Nat.eq_zero_of_not_pos h)

section
variable [DecidableEq C]

def State.deliver (s : State C) (c : C) : State C :=
  if s.closed c then s else { s with unread := Function.update s.unread c (s.unread c + 1) }

def step (s : State C) : Action C → Option (State C)
  | .take c =>
    if s.closed c = false ∧ 0 < s.unread c then
      some { s with unread := Function.update s.unread c (s.unread c - 1) }
    else none
  | .close c =>
    if s.closed c then none else some { s with closed := Function.update s.closed c true }

theorem step_excess {s s' : State C} {a : Action C} (hs : step s a = some s') (c : C) :
    s'.excess c ≤ s.excess c ∧ (a.owner = c → 0 < s.excess c → s'.excess c < s.excess c) := by
  cases a with
  | take d =>
    simp only [step, Option.ite_none_right_eq_some, Option.some.injEq] at hs
    obtain ⟨⟨hopen, hpos⟩, rfl⟩ := hs
    by_cases hcd : c = d
    · subst hcd
      simp only [State.excess, hopen, Function.update_self, Bool.false_eq_true, if_false]
      omega
    · simp [State.excess, Action.owner, Function.update_of_ne hcd, Ne.symm hcd]
  | close d =>
    simp only [step, Option.ite_none_left_eq_some, Option.some.injEq] at hs
    obtain ⟨-, rfl⟩ := hs
    by_cases hcd : c = d
    · subst hcd
      simp [State.excess]
    · simp [State.excess, Action.owner, Function.update_of_ne hcd, Ne.symm hcd]

theorem exists_step {s : State C} {c : C} (h : 0 < s.excess c) :
    0 < s.unread c ∧ (step s (.take c)).isSome = true := by
  unfold State.excess at h
  split at h
  · simp at h
  · rename_i hopen
    have hpos : 0 < s.unread c := by omega
    exact ⟨hpos, by simp [step, hopen, hpos]⟩

end

end Mailboxes
