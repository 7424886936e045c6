import StudyC.Mgmt.Interleaving

/-!
# Reading names that may not end

`mgmt_request_validate` does not ask for a NUL in `target_module`. The lookup of `handler_dispatch`
compares the field with stored names all the same, and it is the stored names that end every
comparison.
-/

open CString Runs

namespace StudyC.Mgmt.NameReads

variable {H X : Type}

/-- The loop of `handler_dispatch` from entry `i` on, as it reads the names; nothing if it reads
behind the end of one of the two arrays. -/
def lookupLoop (cmdType : UInt8) (target : Vector UInt8 mgmtModuleNameSize) :
    List (EventHandlerEntry H X) → Nat → Option (Option Nat)
  | [], _ => some none
  | e :: es, i =>
    if e.cmdType = cmdType then
      (strcmp e.moduleName.toList target.toList).bind fun d =>
        if d = 0 then some (some i) else lookupLoop cmdType target es (i + 1)
    else lookupLoop cmdType target es (i + 1)

theorem lookupLoop_eq {cmdType : UInt8} {target : Vector UInt8 mgmtModuleNameSize}
    {es : List (EventHandlerEntry H X)} (hends : ∀ e ∈ es, 0 ∈ e.moduleName.toList) (i : Nat) :
    lookupLoop cmdType target es i = some ((es.findIdx? fun e =>
      e.cmdType = cmdType ∧ cstr e.moduleName.toList = cstr target.toList).map (· + i)) := by
  induction es generalizing i with
  | nil => rfl
  | cons e es ih =>
    have hrest := ih (fun e' he' => hends e' (.tail e he')) (i + 1)
    have hshift : ∀ o : Option Nat, (o.map (· + 1)).map (· + i) = o.map (· + (i + 1)) := by
      intro o
      cases o <;> simp [Nat.add_comm, Nat.add_left_comm]
    unfold lookupLoop
    rw [List.findIdx?_cons]
    by_cases hcmd : e.cmdType = cmdType
    · have hlen : e.moduleName.toList.length ≤ target.toList.length := by simp
      obtain ⟨d, hd, hiff⟩ := strcmp_spec (hends e (.head es)) hlen
      rw [if_pos hcmd, hd, Option.bind_some]
      by_cases hzero : d = 0
      · simp [hzero, hcmd, hiff.mp hzero]
      · simp only [hzero, if_false, hcmd, mt hiff.mpr hzero, and_false, decide_false,
          Bool.false_eq_true]
        rw [hrest, hshift]
    · simp only [hcmd, if_false, false_and, decide_false, Bool.false_eq_true]
      rw [hrest, hshift]

theorem names_end {r : EventHandlerRegistry H X} (h : r.ShortNames) {e : EventHandlerEntry H X}
    (he : e ∈ r.entries.live) : 0 ∈ e.moduleName.toList := by
  have hshort := h e.key (List.mem_map_of_mem he)
  exact zero_mem_of_cstr_length_lt (by rw [Vector.length_toList]; exact hshort)

theorem prepareResponse_ends (req : MgmtCommandRequest) :
    0 ∈ (prepareResponse req .zero).sourceModule.toList := by
  -- the copy never writes the last byte
  unfold prepareResponse
  dsimp only
  rw [strncpy_toList _ _ (by decide)]
  apply List.mem_append_right
  simp [MgmtCommandResponse.zero, mgmtModuleNameSize]

section
open Interleaving
variable {T : Type} [DecidableEq T] [Zero H] [DecidableEq H]

/-- In every reachable registry and for every request, terminated or not, the lookup reads inside
the arrays and finds what `findEntry` says, and the name in the response ends. -/
theorem names_read_inside [Zero X] {s : State T H X} (h : Reachable step init s)
    (req : MgmtCommandRequest) :
    lookupLoop req.cmdType req.targetModule s.registry.entries.live 0 =
        some ((s.registry.findEntry req.cmdType req.targetModule.toList).map Fin.val) ∧
      0 ∈ (prepareResponse req .zero).sourceModule.toList := by
  refine ⟨?_, prepareResponse_ends req⟩
  rw [lookupLoop_eq (fun e he => names_end (reachable_shortNames h) he) 0, findEntry_val]
  simp [EventHandlerRegistry.place, KeyedList.position, EventHandlerEntry.key]

def endless : MgmtCommandRequest :=
  { mgmtRequestInit ⟨⟨1, 0⟩, 1⟩ 0 none [] with targetModule := .replicate _ 97 }

def longName : List (Interleaving.Action Unit Nat Nat) := [.register (some (.letters 100)) 0 1 10]

theorem endless_read_inside : mgmtRequestValidate endless = true ∧ 0 ∉ endless.targetModule.toList ∧
    ∃ s : State Unit Nat Nat, exec step init longName = some s ∧ s.registry.entries.count = 1 ∧
      (lookupLoop endless.cmdType endless.targetModule s.registry.entries.live 0).isSome := by
  refine ⟨by decide +kernel, by simp [endless], _, rfl, by decide +kernel, ?_⟩
  rw [(names_read_inside ⟨longName, rfl⟩ endless).1]
  rfl

end

end StudyC.Mgmt.NameReads
