import StudyC.Lib.CString

/-!
# Chained calls of snprintf

`offset += snprintf(buf + offset, size - offset, ...)`, call after call. A call returns the length
of its whole text, so that the offset may pass the end of the buffer, and the room left, which is
unsigned, wraps around then.
-/

open CString

namespace Appends

def intMax : Nat := 2147483647

structure Call where
  offset : Nat
  room : UInt64
  text : List UInt8

/-- The bytes that a call stores from `buf + offset` on. -/
def Call.written (c : Call) : List UInt8 :=
  if c.room = 0 then [] else c.text.take (c.room.toNat - 1) ++ [0]

/-- The memory after a call, by the distance from `buf`. -/
def Call.store (mem : Nat → UInt8) (c : Call) (i : Nat) : UInt8 :=
  if i < c.offset then mem i else c.written.getD (i - c.offset) (mem i)

/-- The call starts in the buffer or at its end, and every byte it stores is in the buffer. -/
def Call.Inside (size : UInt64) (c : Call) : Prop :=
  c.offset ≤ size.toNat ∧ c.offset + c.written.length ≤ size.toNat

structure Chain where
  offset : Nat
  calls : List Call

def Chain.start : Chain := ⟨0, []⟩

def Chain.memory (s : Chain) (mem : Nat → UInt8) : Nat → UInt8 := s.calls.foldl Call.store mem

def Chain.Inside (size : UInt64) (s : Chain) : Prop := ∀ c ∈ s.calls, c.Inside size

/-- A call whose result is not used. -/
def Chain.print (size : UInt64) (s : Chain) (text : List UInt8) : Chain :=
  { s with calls := s.calls ++ [⟨s.offset, size - .ofNat s.offset, text⟩] }

/-- A call whose result is added to the offset, an `int`. -/
def Chain.append (size : UInt64) (s : Chain) (text : List UInt8) : Option Chain :=
  if s.offset + text.length ≤ intMax then
    some { s.print size text with offset := s.offset + text.length }
  else none

def Chain.appendAll (size : UInt64) (s : Chain) (texts : List (List UInt8)) : Option Chain :=
  texts.foldlM (Chain.append size) s

/-- `(int)size`. -/
def intOf (size : UInt64) : Int := (size.toUInt32.toInt32).toInt

/-- `offset >= (int)size - 1`, and nothing if the difference is not an `int`. -/
def Chain.full (size : UInt64) (s : Chain) : Option Bool :=
  if intOf size = -2147483648 then none else some (intOf size - 1 ≤ s.offset)

/-- The memory begins with the bytes. -/
def Starts (mem : Nat → UInt8) (l : List UInt8) : Prop := ∀ i < l.length, l[i]? = some (mem i)

/-- The string at `buf`. -/
def Reads (mem : Nat → UInt8) (t : CStr) : Prop := Starts mem (t.bytes ++ [0])

/-- What the calls were given is in the buffer, as much of it as there is room for, and a NUL after
it. -/
def Chain.Shows (size : UInt64) (s : Chain) (text : List UInt8) : Prop :=
  ∀ mem, Starts (s.memory mem) (text.take (size.toNat - 1) ++ [0])

/-! ## Memory -/

theorem starts_append {mem : Nat → UInt8} {a b : List UInt8} :
    Starts mem (a ++ b) ↔ Starts mem a ∧ Starts (fun i => mem (a.length + i)) b := by
  unfold Starts
  constructor
  · intro h
    refine ⟨fun i hi => ?_, fun i hi => ?_⟩
    · rw [← h i (by rw [List.length_append]; omega), List.getElem?_append_left hi]
    · have hlt : a.length + i < (a ++ b).length := by rw [List.length_append]; omega
      rw [← h (a.length + i) hlt, List.getElem?_append_right (by omega)]
      simp
  · rintro ⟨ha, hb⟩ i hi
    rcases Nat.lt_or_ge i a.length with hlt | hge
    · rw [List.getElem?_append_left hlt, ha i hlt]
    · rw [List.length_append] at hi
      rw [List.getElem?_append_right hge, hb (i - a.length) (by omega)]
      dsimp only
      rw [Nat.add_sub_cancel' hge]

theorem starts_cons {mem : Nat → UInt8} {b : UInt8} {l : List UInt8} :
    Starts mem (b :: l) ↔ mem 0 = b ∧ Starts (fun i => mem (i + 1)) l := by
  rw [← List.singleton_append, starts_append]
  refine and_congr ⟨fun h => ?_, fun h i hi => ?_⟩ ?_
  · exact (Option.some.inj (h 0 (by simp))).symm
  · obtain rfl : i = 0 := by simpa using hi
    rw [h]
    rfl
  · simp only [List.length_singleton, Nat.add_comm 1]

theorem Starts.unique {mem : Nat → UInt8} {a b : List UInt8} (hsa : Starts mem (a ++ [0]))
    (ha : ∀ x ∈ a, x ≠ 0) (hb : ∀ x ∈ b, x ≠ 0) (hsb : Starts mem (b ++ [0])) : a = b := by
  induction a generalizing b mem with
  | nil =>
    cases b with
    | nil => rfl
    | cons y b =>
      exact absurd ((starts_cons.mp hsb).1.symm.trans (starts_cons.mp hsa).1) (hb y (by simp))
  | cons x a ih =>
    cases b with
    | nil =>
      exact absurd ((starts_cons.mp hsa).1.symm.trans (starts_cons.mp hsb).1) (ha x (by simp))
    | cons y b =>
      obtain ⟨hx, hresta⟩ := starts_cons.mp hsa
      obtain ⟨hy, hrestb⟩ := starts_cons.mp hsb
      rw [List.forall_mem_cons] at ha hb
      rw [← hx, ← hy, ih hresta ha.2 hb.2 hrestb]

theorem store_before (mem : Nat → UInt8) (c : Call) {i : Nat} (h : i < c.offset) :
    c.store mem i = mem i :=
  if_pos h

theorem store_starts (mem : Nat → UInt8) (c : Call) :
    Starts (fun i => c.store mem (c.offset + i)) c.written := by
  intro i hi
  have hle : ¬ c.offset + i < c.offset := by omega
  simp only [Call.store, if_neg hle, Nat.add_sub_cancel_left, List.getD_eq_getElem?_getD,
    List.getElem?_eq_getElem hi, Option.getD_some]

/-! ## One call -/

theorem room_toNat {size : UInt64} {offset : Nat} (h : offset ≤ size.toNat) :
    (size - .ofNat offset).toNat = size.toNat - offset := by
  have hoffset : (UInt64.ofNat offset).toNat = offset :=
    UInt64.toNat_ofNat_of_lt' (Nat.lt_of_le_of_lt h size.toNat_lt_size)
  rw [UInt64.toNat_sub_of_le _ _ (by rw [UInt64.le_iff_toNat_le, hoffset]; exact h), hoffset]

theorem written_length_le {size : UInt64} {offset : Nat} (h : offset ≤ size.toNat)
    (text : List UInt8) :
    (Call.mk offset (size - .ofNat offset) text).written.length ≤ size.toNat - offset := by
  unfold Call.written
  split
  · exact Nat.zero_le _
  · rename_i hroom
    have hne : (size - .ofNat offset).toNat ≠ 0 := fun hzero => hroom (UInt64.toNat_inj.mp hzero)
    rw [List.length_append, List.length_take, List.length_singleton]
    rw [room_toNat h] at hne ⊢
    omega

theorem call_inside_iff (size : UInt64) (offset : Nat) (text : List UInt8) :
    (Call.mk offset (size - .ofNat offset) text).Inside size ↔ offset ≤ size.toNat := by
  refine ⟨And.left, fun h => ⟨h, ?_⟩⟩
  have hlen := written_length_le h text
  dsimp only
  omega

theorem inside_print_iff (size : UInt64) (s : Chain) (text : List UInt8) :
    (s.print size text).Inside size ↔ s.Inside size ∧ s.offset ≤ size.toNat := by
  simp [Chain.Inside, Chain.print, or_imp, forall_and, call_inside_iff]

theorem print_shows {size : UInt64} (hsize : 0 < size.toNat) {s : Chain} {text : List UInt8}
    (hoffset : s.offset = text.length) (hshows : text ≠ [] → s.Shows size text)
    (piece : List UInt8) : (s.print size piece).Shows size (text ++ piece) := by
  intro mem
  let c : Call := ⟨s.offset, size - .ofNat s.offset, piece⟩
  have hmemory : (s.print size piece).memory mem = c.store (s.memory mem) := by
    simp [Chain.memory, Chain.print, c]
  rw [hmemory]
  rcases Nat.lt_or_ge s.offset size.toNat with hlt | hge
  · -- there is room: the piece goes over the NUL, and what it is cut to ends where the buffer does
    have hroom : c.room.toNat = size.toNat - s.offset := room_toNat hlt.le
    have hne : c.room ≠ 0 := fun hzero => by
      rw [hzero] at hroom
      simp at hroom
      omega
    have hwritten : c.written = piece.take (size.toNat - 1 - text.length) ++ [0] := by
      rw [Call.written, if_neg hne, hroom, ← hoffset]
      congr 2
      omega
    rw [List.take_append, List.take_of_length_le (by omega), List.append_assoc, ← hwritten,
      starts_append]
    constructor
    · intro i hi
      have hne : text ≠ [] := List.ne_nil_of_length_pos (by omega)
      have hold := (starts_append.mp (hshows hne mem)).1
      rw [List.take_of_length_le (by omega)] at hold
      rw [store_before _ _ (by simpa [c, hoffset] using hi)]
      exact hold i hi
    · rw [← hoffset]
      exact store_starts _ c
  · -- no room: whatever is stored is behind the buffer
    have hne : text ≠ [] := List.ne_nil_of_length_pos (by omega)
    rw [List.take_append_of_le_length (by omega)]
    intro i hi
    rw [store_before _ _ ?_]
    · exact hshows hne mem i hi
    · have hlen : (text.take (size.toNat - 1) ++ [0]).length ≤ size.toNat := by
        rw [List.length_append, List.length_take, List.length_singleton]
        omega
      exact Nat.lt_of_lt_of_le hi (Nat.le_trans hlen hge)

theorem Chain.Shows.reads_iff {size : UInt64} {s : Chain} {text : List UInt8}
    (h : s.Shows size text) (hnul : ∀ b ∈ text, b ≠ 0) (mem : Nat → UInt8) (t : CStr) :
    Reads (s.memory mem) t ↔ t.bytes = text.take (size.toNat - 1) := by
  constructor
  · intro hreads
    exact hreads.unique t.nonul (fun b hb => hnul b (List.mem_of_mem_take hb)) (h mem)
  · intro ht
    rw [Reads, ht]
    exact h mem

/-! ## Chains -/

structure Chain.Renders (size : UInt64) (s : Chain) (text : List UInt8) : Prop where
  offset : s.offset = text.length
  shows : text ≠ [] → s.Shows size text

theorem start_renders (size : UInt64) : Chain.start.Renders size [] := ⟨rfl, fun h => absurd rfl h⟩

theorem append_eq_some {size : UInt64} {s t : Chain} {text : List UInt8} :
    s.append size text = some t ↔
      s.offset + text.length ≤ intMax ∧
        t = { s.print size text with offset := s.offset + text.length } := by
  unfold Chain.append
  split
  · simp [*, eq_comm]
  · simp [*]

theorem Chain.Renders.append {size : UInt64} (hsize : 0 < size.toNat) {s t : Chain}
    {text piece : List UInt8} (hs : s.Renders size text) (h : s.append size piece = some t) :
    t.Renders size (text ++ piece) := by
  obtain ⟨-, rfl⟩ := append_eq_some.mp h
  refine ⟨?_, fun _ => ?_⟩
  · rw [List.length_append, ← hs.offset]
  · exact print_shows hsize hs.offset hs.shows piece

theorem append_inside_iff {size : UInt64} {s t : Chain} {text : List UInt8}
    (h : s.append size text = some t) : t.Inside size ↔ s.Inside size ∧ s.offset ≤ size.toNat := by
  obtain ⟨-, rfl⟩ := append_eq_some.mp h
  exact inside_print_iff size s text

theorem appendAll_cons (size : UInt64) (s : Chain) (text : List UInt8) (texts : List (List UInt8)) :
    s.appendAll size (text :: texts) = (s.append size text).bind fun t => t.appendAll size texts :=
  rfl

theorem appendAll_singleton (size : UInt64) (s : Chain) (text : List UInt8) :
    s.appendAll size [text] = s.append size text :=
  Option.bind_fun_some _

theorem appendAll_append (size : UInt64) (s : Chain) (a b : List (List UInt8)) :
    s.appendAll size (a ++ b) = (s.appendAll size a).bind fun t => t.appendAll size b :=
  List.foldlM_append

theorem appendAll_offset {size : UInt64} {s t : Chain} {texts : List (List UInt8)}
    (h : s.appendAll size texts = some t) : t.offset = s.offset + texts.flatten.length := by
  induction texts generalizing s with
  | nil =>
    obtain rfl := Option.some.inj h
    rfl
  | cons text texts ih =>
    obtain ⟨s', hs, hrest⟩ := Option.bind_eq_some_iff.mp h
    rw [ih hrest, (append_eq_some.mp hs).2, List.flatten_cons, List.length_append, Nat.add_assoc]

theorem appendAll_isSome {size : UInt64} {s : Chain} {texts : List (List UInt8)}
    (h : s.offset + texts.flatten.length ≤ intMax) : ∃ t, s.appendAll size texts = some t := by
  induction texts generalizing s with
  | nil => exact ⟨s, rfl⟩
  | cons text texts ih =>
    rw [List.flatten_cons, List.length_append, ← Nat.add_assoc] at h
    have hs : s.append size text = some _ :=
      append_eq_some.mpr ⟨Nat.le_trans (Nat.le_add_right _ _) h, rfl⟩
    rw [appendAll_cons, hs]
    exact ih h

theorem Chain.Renders.appendAll {size : UInt64} (hsize : 0 < size.toNat) {s t : Chain}
    {text : List UInt8} {texts : List (List UInt8)} (hs : s.Renders size text)
    (h : s.appendAll size texts = some t) : t.Renders size (text ++ texts.flatten) := by
  induction texts generalizing s text with
  | nil =>
    obtain rfl := Option.some.inj h
    simpa using hs
  | cons piece texts ih =>
    obtain ⟨s', hs', hrest⟩ := Option.bind_eq_some_iff.mp h
    rw [List.flatten_cons, ← List.append_assoc]
    exact ih (hs.append hsize hs') hrest

theorem appendAll_inside {size : UInt64} {s t : Chain} {texts : List (List UInt8)}
    (hs : s.Inside size) (h : s.appendAll size texts = some t) (hoffset : t.offset ≤ size.toNat) :
    t.Inside size := by
  -- the offset only grows, so that calls up to an offset in the buffer are inside
  induction texts generalizing s with
  | nil =>
    obtain rfl := Option.some.inj h
    exact hs
  | cons text texts ih =>
    obtain ⟨s', hs', hrest⟩ := Option.bind_eq_some_iff.mp h
    have hle := appendAll_offset h
    exact ih ((append_inside_iff hs').mpr ⟨hs, by omega⟩) hrest

theorem inside_of_appendAll {size : UInt64} {s t : Chain} {texts : List (List UInt8)}
    (h : s.appendAll size texts = some t) (ht : t.Inside size) : s.Inside size := by
  induction texts generalizing s with
  | nil =>
    obtain rfl := Option.some.inj h
    exact ht
  | cons text texts ih =>
    obtain ⟨s', hs', hrest⟩ := Option.bind_eq_some_iff.mp h
    exact ((append_inside_iff hs').mp (ih hrest)).1

theorem appendAll_concat_inside_iff {size : UInt64} {s t : Chain} {texts : List (List UInt8)}
    {text : List UInt8} (h : s.appendAll size (texts ++ [text]) = some t) :
    t.Inside size ↔ s.Inside size ∧ s.offset + texts.flatten.length ≤ size.toNat := by
  -- only the offset of the last call matters
  rw [appendAll_append] at h
  obtain ⟨m, hm, ht⟩ := Option.bind_eq_some_iff.mp h
  rw [appendAll_singleton] at ht
  rw [append_inside_iff ht, appendAll_offset hm]
  refine and_congr_left fun hoffset => ⟨inside_of_appendAll hm, fun hs => ?_⟩
  exact appendAll_inside hs hm (by rw [appendAll_offset hm]; exact hoffset)

/-! ## The check -/

theorem intOf_eq (size : UInt64) : intOf size = (size.toNat : Int).bmod 4294967296 := by
  rw [intOf, Int32.toInt, UInt32.toBitVec_toInt32, BitVec.toInt_eq_toNat_bmod,
    UInt32.toNat_toBitVec, UInt64.toNat_toUInt32, Int.natCast_emod]
  exact Int.emod_bmod _ _

theorem intOf_le (size : UInt64) : intOf size ≤ size.toNat := by
  rw [intOf_eq, Int.bmod_def]
  split <;> omega

theorem intOf_of_le {size : UInt64} (h : size.toNat ≤ intMax) : intOf size = size.toNat := by
  unfold intMax at h
  rw [intOf_eq, Int.bmod_def]
  split <;> omega

theorem offset_lt_of_not_full {size : UInt64} {s : Chain} (h : s.full size = some false) :
    s.offset + 1 < size.toNat := by
  have hle := intOf_le size
  unfold Chain.full at h
  split at h
  · simp at h
  · have hlt := of_decide_eq_false (Option.some.inj h)
    omega

theorem full_of_le {size : UInt64} (h : size.toNat ≤ intMax) (s : Chain) :
    s.full size = some (decide (size.toNat ≤ s.offset + 1)) := by
  rw [Chain.full, intOf_of_le h, if_neg (by omega)]
  congr 2
  apply propext
  omega

end Appends
