import StudyC.Lib.CString
import StudyC.Lib.Runs

/-!
# The shared memory API and its two back ends

`shm_api_write` and `shm_api_read` are the same text in the System V and in the POSIX back end. The
back ends differ in the size of `message` in their `SharedData`, which is a parameter here.
-/

open CString Runs

namespace StudyC.Shm

/-- `MAX_PAYLOAD_SIZE`, the size of the callers' buffers. -/
def maxPayloadSize : Nat := 1024

/-- Without the mutex, and without `updated`, which nothing reads. -/
structure SharedData (n : Nat) where
  statusCode : Int32
  message : Vector UInt8 n
  deriving DecidableEq

def SharedData.zero (n : Nat) : SharedData n := ⟨0, .replicate n 0⟩

abbrev SysV := SharedData maxPayloadSize
abbrev Posix := SharedData 256

variable {n : Nat}

/-- `locked` is what `safe_lock` returns. -/
def shmApiWrite (locked : Bool) (shm : SharedData n) (status : Int32) (msg : CStr) :
    Bool × SharedData n :=
  if !locked then (false, shm)
  else (true, ⟨status, snprintf shm.message n msg.bytes⟩)

structure ReadResult where
  ret : Bool
  /-- `*out_status`, if the caller passes the pointer. -/
  status : Option Int32
  /-- `out_msg`, if the caller passes the pointer. -/
  msg : Option (Vector UInt8 maxPayloadSize)

/-- The precision of `%.*s` and the size of the destination are both taken from `message`. -/
def shmApiRead (locked : Bool) (shm : SharedData n) (wantStatus : Bool)
    (outMsg : Option (Vector UInt8 maxPayloadSize)) : ReadResult :=
  if !locked then ⟨false, none, outMsg⟩
  else
    let status := if wantStatus then some shm.statusCode else none
    match outMsg with
    | none => ⟨true, status, none⟩
    | some buf =>
      if n < 1 then ⟨false, status, some buf⟩
      else ⟨true, status, some (snprintf buf n (cstr (shm.message.toList.take (n - 1))))⟩

theorem write_ret (shm : SharedData n) (status : Int32) (msg : CStr) :
    (shmApiWrite true shm status msg).1 = true := rfl

theorem read_ret (hn : 0 < n) (shm : SharedData n) (wantStatus : Bool)
    (outMsg : Option (Vector UInt8 maxPayloadSize)) :
    (shmApiRead true shm wantStatus outMsg).ret = true := by
  rcases outMsg with _ | buf
  · simp [shmApiRead]
  · simp [shmApiRead, show ¬ n < 1 by omega]

theorem read_status (shm : SharedData n) (wantStatus : Bool)
    (outMsg : Option (Vector UInt8 maxPayloadSize)) :
    (shmApiRead true shm wantStatus outMsg).status = if wantStatus then some shm.statusCode
      else none := by
  rcases outMsg with _ | buf
  · simp [shmApiRead]
  · simp only [shmApiRead]
    split
    · cases ‹(!true) = true›
    · split <;> rfl

def Holds (shm : SharedData n) (msg : CStr) : Prop :=
  cstr shm.message.toList = msg.bytes.take (n - 1)

theorem holds_zero (hn : 0 < n) : Holds (SharedData.zero n) ⟨[], by simp⟩ := by
  obtain ⟨k, rfl⟩ : ∃ k, n = k + 1 := ⟨n - 1, by omega⟩
  simp [Holds, SharedData.zero, cstr, Vector.toList_replicate, List.replicate_succ]

theorem write_holds (hn : 0 < n) (shm : SharedData n) (status : Int32) (msg : CStr) :
    Holds (shmApiWrite true shm status msg).2 msg :=
  cstr_snprintf _ _ hn le_rfl msg.nonul

theorem read_holds (hn : 0 < n) (hsize : n ≤ maxPayloadSize) {shm : SharedData n} {msg : CStr}
    (h : Holds shm msg) (wantStatus : Bool) (buf : Vector UInt8 maxPayloadSize) :
    (shmApiRead true shm wantStatus (some buf)).msg.map (fun b => cstr b.toList) =
      some (msg.bytes.take (n - 1)) := by
  have htext : cstr (shm.message.toList.take (n - 1)) = msg.bytes.take (n - 1) := by
    rw [cstr_take, h, List.take_take, Nat.min_self]
  have hread : (shmApiRead true shm wantStatus (some buf)).msg =
      some (snprintf buf n (cstr (shm.message.toList.take (n - 1)))) := by
    simp [shmApiRead, show ¬ n < 1 by omega]
  rw [hread, Option.map_some, cstr_snprintf _ _ hn hsize (cstr_nonul _), htext, List.take_take,
    Nat.min_self]

/-! ## The two back ends side by side -/

inductive Call where
  | write (status : Int32) (msg : CStr)
  | read (wantStatus : Bool) (outMsg : Option (Vector UInt8 maxPayloadSize))

/-- What a caller sees of a call: the return value, the status and the message as a string. -/
structure Observation where
  ret : Bool
  status : Option Int32
  msg : Option (List UInt8)
  deriving DecidableEq

def observe (shm : SharedData n) : Call → Observation × SharedData n
  | .write status msg =>
    let o := shmApiWrite true shm status msg
    (⟨o.1, none, none⟩, o.2)
  | .read wantStatus outMsg =>
    let o := shmApiRead true shm wantStatus outMsg
    (⟨o.ret, o.status, o.msg.map fun b => cstr b.toList⟩, shm)

theorem observe_read (hn : 0 < n) (hsize : n ≤ maxPayloadSize) {shm : SharedData n} {msg : CStr}
    (h : Holds shm msg) (wantStatus : Bool) (buf : Vector UInt8 maxPayloadSize) :
    (observe shm (.read wantStatus (some buf))).1 =
      ⟨true, if wantStatus then some shm.statusCode else none, some (msg.bytes.take (n - 1))⟩ := by
  simp only [observe, read_ret hn, read_status, read_holds hn hsize h]

structure Pair where
  sysv : SysV
  posix : Posix
  last : CStr

def pairStep (p : Pair) (c : Call) : Option Pair :=
  some ⟨(observe p.sysv c).2, (observe p.posix c).2, match c with
    | .write _ msg => msg
    | .read _ _ => p.last⟩

def Pair.init : Pair := ⟨.zero _, .zero _, ⟨[], by simp⟩⟩

def SameObservation (p : Pair) (c : Call) : Prop := (observe p.sysv c).1 = (observe p.posix c).1

/-- A read with a message buffer finds a message of at most 255 bytes. -/
def ReadFits (p : Pair) : Call → Prop
  | .read _ (some _) => p.last.bytes.length ≤ 255
  | _ => True

structure PairInv (p : Pair) : Prop where
  status : p.sysv.statusCode = p.posix.statusCode
  sysv : Holds p.sysv p.last
  posix : Holds p.posix p.last

theorem pairStep_inv (p : Pair) (c : Call) (p' : Pair) (hinv : PairInv p)
    (hs : pairStep p c = some p') : PairInv p' := by
  obtain rfl := Option.some.inj hs
  cases c with
  | write status msg => exact ⟨rfl, write_holds (by decide) _ _ _, write_holds (by decide) _ _ _⟩
  | read wantStatus outMsg => exact hinv

theorem take_1023_eq_take_255 (l : List UInt8) : l.take 1023 = l.take 255 ↔ l.length ≤ 255 := by
  constructor
  · intro h
    have := congrArg List.length h
    rw [List.length_take, List.length_take] at this
    omega
  · intro h
    rw [List.take_of_length_le (by omega), List.take_of_length_le h]

theorem sameObservation_iff (p : Pair) (c : Call) (hinv : PairInv p) :
    SameObservation p c ↔ ReadFits p c := by
  cases c with
  | write status msg => exact iff_of_true rfl trivial
  | read wantStatus outMsg =>
    have hsysv : 0 < maxPayloadSize := by decide
    have hposix : 0 < 256 := by decide
    unfold SameObservation
    rcases outMsg with _ | buf
    · simp [ReadFits, observe, shmApiRead, hinv.status]
    · rw [observe_read hsysv le_rfl hinv.sysv, observe_read hposix (by decide) hinv.posix,
        hinv.status]
      simp only [Observation.mk.injEq, true_and, Option.some.injEq]
      exact take_1023_eq_take_255 p.last.bytes

/-- Switching the back end is seen in a run exactly if some read meets a message of more than 255
bytes. -/
theorem backends_agree_iff (cs : List Call) :
    Along pairStep SameObservation Pair.init cs ↔ Along pairStep ReadFits Pair.init cs := by
  refine along_congr (fun p c p' hinv _ hs => pairStep_inv p c p' hinv hs) sameObservation_iff ?_ cs
  exact ⟨rfl, holds_zero (by decide), holds_zero (by decide)⟩

def longMessage : CStr := .letters 256

/-- The POSIX back end loses the last byte of a message of 256 bytes. -/
theorem long_message_differs :
    ∃ p, exec pairStep Pair.init [.write 100 longMessage] = some p ∧
      (observe p.sysv (.read true (some (.replicate _ 0)))).1 =
        ⟨true, some 100, some (List.replicate 256 97)⟩ ∧
      (observe p.posix (.read true (some (.replicate _ 0)))).1 =
        ⟨true, some 100, some (List.replicate 255 97)⟩ := by
  have hsysv : 0 < maxPayloadSize := by decide
  have hposix : 0 < 256 := by decide
  refine ⟨_, rfl, (observe_read hsysv le_rfl (write_holds hsysv _ _ longMessage) true _).trans ?_,
    (observe_read hposix (by decide) (write_holds hposix _ _ longMessage) true _).trans ?_⟩
  · rw [longMessage, CStr.letters, List.take_replicate]
    rfl
  · rw [longMessage, CStr.letters, List.take_replicate]
    rfl

end StudyC.Shm
