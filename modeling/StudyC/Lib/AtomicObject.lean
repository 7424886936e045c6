import Mathlib.Logic.Function.Basic
import StudyC.Lib.Runs

/-!
# Atomic objects

The object that a linearizable implementation stands for: between the invocation of an operation and
its response there is one step in which the whole operation happens. `apply` is the operation on the
object. A process that crashes leaves its operation done or not done.
-/

open Runs

namespace AtomicObject

variable {P X Op Res : Type} [DecidableEq P] [DecidableEq Res]

inductive Status (Op Res : Type) where
  | idle
  | invoked (op : Op)
  | performed (res : Res)
  | crashed

structure State (P X Op Res : Type) where
  obj : X
  proc : P → Status Op Res

inductive Event (P Op Res : Type) where
  | invoke (p : P) (op : Op)
  | perform (p : P)
  | respond (p : P) (res : Res)
  | crash (p : P)

def step (apply : X → Op → X × Res) (s : State P X Op Res) :
    Event P Op Res → Option (State P X Op Res)
  | .invoke p op => match s.proc p with
    | .idle => some { s with proc := Function.update s.proc p (.invoked op) }
    | _ => none
  | .perform p => match s.proc p with
    | .invoked op =>
      let o := apply s.obj op
      some ⟨o.1, Function.update s.proc p (.performed o.2)⟩
    | _ => none
  | .respond p res => match s.proc p with
    | .performed res' =>
      if res' = res then some { s with proc := Function.update s.proc p .idle } else none
    | _ => none
  | .crash p => match s.proc p with
    | .crashed => none
    | _ => some { s with proc := Function.update s.proc p .crashed }

def init (x : X) : State P X Op Res := ⟨x, fun _ => .idle⟩

variable {apply : X → Op → X × Res} {x : X} {proc : P → Status Op Res} {p : P} {op : Op}

theorem exec_invoke (h : proc p = .idle) :
    exec (step apply) ⟨x, proc⟩ [.invoke p op] =
      some ⟨x, Function.update proc p (.invoked op)⟩ := by
  simp [exec, step, h]

theorem exec_perform (h : proc p = .invoked op) :
    exec (step apply) ⟨x, proc⟩ [.perform p] =
      some ⟨(apply x op).1, Function.update proc p (.performed (apply x op).2)⟩ := by
  simp [exec, step, h]

theorem exec_respond {res : Res} (h : proc p = .performed res) :
    exec (step apply) ⟨x, proc⟩ [.respond p res] = some ⟨x, Function.update proc p .idle⟩ := by
  simp [exec, step, h]

theorem exec_crash (h : proc p ≠ .crashed) :
    exec (step apply) ⟨x, proc⟩ [.crash p] = some ⟨x, Function.update proc p .crashed⟩ := by
  simp [exec, step]

theorem exec_perform_respond (h : proc p = .invoked op) :
    exec (step apply) ⟨x, proc⟩ [.perform p, .respond p (apply x op).2] =
      some ⟨(apply x op).1, Function.update proc p .idle⟩ := by
  simp [exec, step, h]

end AtomicObject
