import Mathlib.Algebra.GroupWithZero.Nat
import Mathlib.Algebra.Order.BigOperators.Group.List
import Mathlib.Algebra.Order.Group.Nat
import Mathlib.Data.List.Basic
import Mathlib.Order.Basic
import Mathlib.Tactic.Common

/-!
# A fixed array with a count

The slots below the count are live. Removing a slot shifts the live slots after it one down, and
leaves the array beyond the new count as it was.
-/

structure SlotTable (α : Type) (n : Nat) where
  slots : Vector α n
  count : Nat
  count_le : count ≤ n

namespace SlotTable

variable {α : Type} {n : Nat}

def live (t : SlotTable α n) : List α := t.slots.toList.take t.count

def modify (t : SlotTable α n) (i : Nat) (f : α → α) : SlotTable α n :=
  if h : i < n then { t with slots := t.slots.set i (f t.slots[i]) } else t

/-- Writes the first slot beyond the count, if the array has one. -/
def push (t : SlotTable α n) (a : α) : SlotTable α n :=
  if h : t.count < n then ⟨t.slots.set t.count a, t.count + 1, h⟩ else t

/-- `for (j = i; ..; j++) a[j] = a[j + 1];`, for `k` rounds. -/
def shift (v : Vector α n) (j : Nat) : Nat → Vector α n
  | 0 => v
  | k + 1 => if h : j + 1 < n then shift (v.set j v[j + 1]) (j + 1) k else v

def remove (t : SlotTable α n) (i : Nat) : SlotTable α n :=
  ⟨shift t.slots i (t.count - 1 - i), t.count - 1, Nat.le_trans (Nat.sub_le _ _) t.count_le⟩

/-- `for (i = 0; i < count; i++)`, each live slot rewritten. -/
def mapLive (t : SlotTable α n) (f : α → α) : SlotTable α n :=
  { t with slots := t.slots.mapIdx fun i a => if i < t.count then f a else a }

def clear (t : SlotTable α n) : SlotTable α n := ⟨t.slots, 0, Nat.zero_le _⟩

@[simp] theorem live_length (t : SlotTable α n) : t.live.length = t.count := by
  have := t.count_le
  simp [live]; omega

theorem live_getElem? (t : SlotTable α n) (i : Nat) :
    t.live[i]? = if i < t.count then t.slots[i]? else none := by
  rw [live, List.getElem?_take]
  simp

/-! ## Slots after each operation -/

@[simp] theorem count_modify (t : SlotTable α n) (i : Nat) (f : α → α) :
    (t.modify i f).count = t.count := by
  unfold modify; split <;> rfl

theorem slots_modify (t : SlotTable α n) (i : Nat) (f : α → α) (k : Nat) :
    (t.modify i f).slots[k]? = if k = i then t.slots[k]?.map f else t.slots[k]? := by
  unfold modify
  split
  · rename_i h
    by_cases hk : k = i
    · subst hk
      simp [h]
    · simp [hk, Vector.getElem?_set_ne _ (Ne.symm hk)]
  · rename_i h
    split
    · rename_i hk
      rw [Vector.getElem?_eq_none (by omega)]; rfl
    · rfl

theorem count_push (t : SlotTable α n) (a : α) (h : t.count < n) :
    (t.push a).count = t.count + 1 := by
  rw [push, dif_pos h]

theorem slots_push (t : SlotTable α n) (a : α) (h : t.count < n) (k : Nat) :
    (t.push a).slots[k]? = if k = t.count then some a else t.slots[k]? := by
  rw [push, dif_pos h]
  by_cases hk : k = t.count
  · subst hk
    simp [h]
  · simp [hk, Vector.getElem?_set_ne _ (Ne.symm hk)]

theorem shift_getElem? (v : Vector α n) (j k : Nat) (h : j + k < n) (i : Nat) :
    (shift v j k)[i]? = if j ≤ i ∧ i < j + k then v[i + 1]? else v[i]? := by
  -- each round moves one slot, and no later round reads or writes it
  induction k generalizing v j with
  | zero => rw [shift, if_neg (by omega)]
  | succ k ih =>
    rw [shift, dif_pos (by omega), ih _ _ (by omega)]
    by_cases hi : i = j
    · subst hi
      rw [if_neg (by omega), if_pos (by omega)]
      simp [Vector.getElem?_eq_getElem (show i + 1 < n by omega), show i < n by omega]
    · rw [Vector.getElem?_set_ne _ (Ne.symm hi)]
      by_cases hin : j + 1 ≤ i ∧ i < j + 1 + k
      · rw [if_pos hin, if_pos (by omega), Vector.getElem?_set_ne _ (by omega)]
      · rw [if_neg hin, if_neg (by omega)]

@[simp] theorem count_remove (t : SlotTable α n) (i : Nat) : (t.remove i).count = t.count - 1 := rfl

theorem slots_remove (t : SlotTable α n) (i : Nat) (h : i < t.count) (k : Nat) :
    (t.remove i).slots[k]? = if i ≤ k ∧ k + 1 < t.count then t.slots[k + 1]? else t.slots[k]? := by
  have := t.count_le
  rw [remove, shift_getElem? _ _ _ (by omega)]
  congr 1
  simp only [eq_iff_iff]
  omega

@[simp] theorem count_mapLive (t : SlotTable α n) (f : α → α) : (t.mapLive f).count = t.count := rfl

theorem slots_mapLive (t : SlotTable α n) (f : α → α) (k : Nat) :
    (t.mapLive f).slots[k]? = if k < t.count then t.slots[k]?.map f else t.slots[k]? := by
  rw [mapLive, Vector.getElem?_mapIdx]
  split
  · rfl
  · exact Option.map_id_apply

/-! ## Live slots after each operation -/

theorem live_modify (t : SlotTable α n) (i : Nat) (f : α → α) :
    (t.modify i f).live = t.live.modify i f := by
  apply List.ext_getElem?
  intro k
  rw [live_getElem?, count_modify, slots_modify, List.getElem?_modify, live_getElem?]
  by_cases hk : k < t.count
  · by_cases hi : k = i
    · subst hi
      simp [hk]
    · simp [hk, hi, Ne.symm hi]
  · simp [hk]

theorem live_push (t : SlotTable α n) (a : α) (h : t.count < n) :
    (t.push a).live = t.live ++ [a] := by
  apply List.ext_getElem?
  intro k
  rw [live_getElem?, count_push _ _ h, slots_push _ _ h, List.getElem?_append, live_length,
    live_getElem?]
  by_cases hk : k < t.count
  · rw [if_pos (by omega), if_neg (by omega), if_pos hk, if_pos hk]
  · rcases eq_or_ne k t.count with rfl | hne
    · simp
    · rw [if_neg (by omega), if_neg hk, List.getElem?_eq_none (by simp; omega)]

theorem live_remove (t : SlotTable α n) (i : Nat) (h : i < t.count) :
    (t.remove i).live = t.live.eraseIdx i := by
  apply List.ext_getElem?
  intro k
  rw [live_getElem?, count_remove, slots_remove _ _ h, List.getElem?_eraseIdx, live_getElem?,
    live_getElem?]
  by_cases hk : k < i
  · rw [if_pos hk, if_pos (by omega), if_neg (by omega), if_pos (by omega)]
  · rw [if_neg hk]
    by_cases hc : k + 1 < t.count
    · rw [if_pos (by omega), if_pos (by omega), if_pos hc]
    · rw [if_neg (by omega), if_neg hc]

theorem live_mapLive (t : SlotTable α n) (f : α → α) : (t.mapLive f).live = t.live.map f := by
  apply List.ext_getElem?
  intro k
  rw [live_getElem?, count_mapLive, slots_mapLive, List.getElem?_map, live_getElem?]
  split <;> rfl

@[simp] theorem live_clear (t : SlotTable α n) : t.clear.live = [] := by
  simp [live, clear]

/-! ## Sums over the live slots -/

def sum (g : α → Nat) (t : SlotTable α n) : Nat := (t.live.map g).sum

variable {f : α → α} {g : α → Nat} {d : Nat}

theorem le_sum {t : SlotTable α n} {a : α} (ha : a ∈ t.live) : g a ≤ t.sum g :=
  List.le_sum_of_mem (List.mem_map_of_mem ha)

theorem sum_map_modify_le (l : List α) (i : Nat) (h : ∀ a, g (f a) ≤ g a + d) :
    ((l.modify i f).map g).sum ≤ (l.map g).sum + d := by
  induction l generalizing i with
  | nil => simp
  | cons a l ih =>
    rcases i with _ | i
    · have := h a
      simp only [List.modify_zero_cons, List.map_cons, List.sum_cons]
      omega
    · have := ih i
      simp only [List.modify_succ_cons, List.map_cons, List.sum_cons]
      omega

theorem sum_map_modify (l : List α) (i : Nat) (hi : i < l.length) (h : ∀ a ∈ l, g (f a) = g a + d) :
    ((l.modify i f).map g).sum = (l.map g).sum + d := by
  induction l generalizing i with
  | nil => simp at hi
  | cons a l ih =>
    rcases i with _ | i
    · have := h a List.mem_cons_self
      simp only [List.modify_zero_cons, List.map_cons, List.sum_cons]
      omega
    · have := ih i (by simpa using hi) fun b hb => h b (List.mem_cons_of_mem a hb)
      simp only [List.modify_succ_cons, List.map_cons, List.sum_cons]
      omega

theorem sum_modify_le (t : SlotTable α n) (i : Nat) (h : ∀ a, g (f a) ≤ g a + d) :
    (t.modify i f).sum g ≤ t.sum g + d := by
  unfold sum
  rw [live_modify]
  exact sum_map_modify_le t.live i h

theorem sum_modify (t : SlotTable α n) {i : Nat} (hi : i < t.count)
    (h : ∀ a ∈ t.live, g (f a) = g a + d) : (t.modify i f).sum g = t.sum g + d := by
  unfold sum
  rw [live_modify]
  exact sum_map_modify t.live i (by simpa using hi) h

theorem sum_push (t : SlotTable α n) (a : α) (h : t.count < n) :
    (t.push a).sum g = t.sum g + g a := by
  simp [sum, live_push t a h]

theorem sum_remove_le (t : SlotTable α n) {i : Nat} (hi : i < t.count) :
    (t.remove i).sum g ≤ t.sum g := by
  unfold sum
  rw [live_remove t i hi]
  exact ((t.live.eraseIdx_sublist i).map g).sum_le_sum fun _ _ => Nat.zero_le _

theorem sum_mapLive_zero (t : SlotTable α n) (h : ∀ a, g (f a) = 0) : (t.mapLive f).sum g = 0 := by
  simp [sum, live_mapLive, Function.comp_def, h]

@[simp] theorem sum_clear (t : SlotTable α n) : t.clear.sum g = 0 := by
  simp [sum]

end SlotTable
