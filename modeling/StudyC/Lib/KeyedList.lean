import Mathlib.Data.Set.Card
import Mathlib.Data.List.Nodup

/-!
# A list of keyed records as a partial map

The first record with a key gives the value of the key. When no two records share a key, writing
in place, appending and erasing are the point updates of the map.
-/

namespace KeyedList

variable {α K V : Type} [DecidableEq K] (key : α → K) (val : α → V)

/-- Where the first record with the key is. -/
def position (l : List α) (k : K) : Option Nat := l.findIdx? fun a => key a = k

def toMap (l : List α) : K → Option V := fun k => (l.find? fun a => key a = k).map val

def dom (m : K → Option V) : Set K := {k | m k ≠ none}

theorem position_cons (a : α) (l : List α) (k : K) :
    position key (a :: l) k = if key a = k then some 0 else (position key l k).map (· + 1) := by
  simp [position, List.findIdx?_cons]

theorem toMap_cons (a : α) (l : List α) (k : K) :
    toMap key val (a :: l) k = if key a = k then some (val a) else toMap key val l k := by
  unfold toMap
  by_cases h : key a = k
  · simp [h]
  · simp [h]

theorem position_eq_none {l : List α} {k : K} : position key l k = none ↔ k ∉ l.map key := by
  simp [position]

theorem toMap_eq_none {l : List α} {k : K} : toMap key val l k = none ↔ k ∉ l.map key := by
  simp [toMap]

theorem position_eq_some {l : List α} {k : K} {i : Nat} (h : position key l k = some i) :
    ∃ a, l[i]? = some a ∧ key a = k ∧ toMap key val l k = some (val a) := by
  induction l generalizing i with
  | nil => simp [position] at h
  | cons a l ih =>
    rw [position_cons] at h
    split at h
    · rename_i hk
      obtain rfl : 0 = i := by simpa using h
      exact ⟨a, rfl, hk, by rw [toMap_cons, if_pos hk]⟩
    · rename_i hk
      obtain ⟨j, hj, rfl⟩ := Option.map_eq_some_iff.mp h
      obtain ⟨b, hb, hkb, hm⟩ := ih hj
      exact ⟨b, by simpa using hb, hkb, by rw [toMap_cons, if_neg hk, hm]⟩

theorem position_lt {l : List α} {k : K} {i : Nat} (h : position key l k = some i) :
    i < l.length := by
  obtain ⟨a, ha, -⟩ := position_eq_some key key h
  exact (List.getElem?_eq_some_iff.mp ha).1

theorem toMap_congr {l l' : List α}
    (h : l.map (fun a => (key a, val a)) = l'.map fun a => (key a, val a)) :
    toMap key val l = toMap key val l' := by
  have hpairs : ∀ l : List α, toMap key val l = fun k =>
      ((l.map fun a => (key a, val a)).find? fun p => p.1 = k).map Prod.snd := by
    intro l
    funext k
    rw [List.find?_map, Option.map_map]
    rfl
  rw [hpairs, hpairs, h]

/-! ## Point updates -/

omit [DecidableEq K] in
theorem keys_modify {l : List α} {i : Nat} {f : α → α} (hf : ∀ a, key (f a) = key a) :
    (l.modify i f).map key = l.map key := by
  induction l generalizing i with
  | nil => cases i <;> rfl
  | cons a l ih =>
    cases i with
    | zero => simp [hf]
    | succ i => simp [ih]

theorem toMap_modify {l : List α} {k : K} {i : Nat} {f : α → α} {v : V}
    (h : position key l k = some i) (hf : ∀ a, key (f a) = key a) (hv : ∀ a, val (f a) = v) :
    toMap key val (l.modify i f) = Function.update (toMap key val l) k (some v) := by
  induction l generalizing i with
  | nil => simp [position] at h
  | cons a l ih =>
    rw [position_cons] at h
    funext k'
    split at h
    · rename_i hk
      obtain rfl : 0 = i := by simpa using h
      subst hk
      rw [List.modify_zero_cons, toMap_cons, hf, hv, Function.update_apply, toMap_cons]
      rcases eq_or_ne k' (key a) with rfl | hne
      · simp
      · simp [hne, Ne.symm hne]
    · rename_i hk
      obtain ⟨j, hj, rfl⟩ := Option.map_eq_some_iff.mp h
      rw [List.modify_succ_cons, toMap_cons, ih hj, Function.update_apply, Function.update_apply,
        toMap_cons]
      rcases eq_or_ne k' k with rfl | hne
      · simp [hk]
      · simp [hne]

theorem toMap_append {l : List α} {a : α} (h : key a ∉ l.map key) :
    toMap key val (l ++ [a]) = Function.update (toMap key val l) (key a) (some (val a)) := by
  induction l with
  | nil =>
    funext k
    rw [List.nil_append, toMap_cons, Function.update_apply]
    simp [eq_comm]
  | cons b l ih =>
    rw [List.map_cons, List.mem_cons, not_or] at h
    funext k
    rw [List.cons_append, toMap_cons, ih h.2, Function.update_apply, Function.update_apply,
      toMap_cons]
    rcases eq_or_ne k (key a) with rfl | hne
    · simp [Ne.symm h.1]
    · simp [hne]

theorem toMap_eraseIdx {l : List α} {k : K} {i : Nat} (hnd : (l.map key).Nodup)
    (h : position key l k = some i) :
    toMap key val (l.eraseIdx i) = Function.update (toMap key val l) k none := by
  induction l generalizing i with
  | nil => simp [position] at h
  | cons a l ih =>
    rw [List.map_cons, List.nodup_cons] at hnd
    rw [position_cons] at h
    funext k'
    split at h
    · rename_i hk
      obtain rfl : 0 = i := by simpa using h
      subst hk
      rw [List.eraseIdx_cons_zero, Function.update_apply, toMap_cons]
      rcases eq_or_ne k' (key a) with rfl | hne
      · simpa using (toMap_eq_none key val).mpr hnd.1
      · simp [hne, Ne.symm hne]
    · rename_i hk
      obtain ⟨j, hj, rfl⟩ := Option.map_eq_some_iff.mp h
      rw [List.eraseIdx_cons_succ, toMap_cons, ih hnd.2 hj, Function.update_apply,
        Function.update_apply, toMap_cons]
      rcases eq_or_ne k' k with rfl | hne
      · simp [hk]
      · simp [hne]

theorem eraseIdx_eq_filter {l : List α} {k : K} {i : Nat} (hnd : (l.map key).Nodup)
    (h : position key l k = some i) : l.eraseIdx i = l.filter fun a => key a ≠ k := by
  induction l generalizing i with
  | nil => simp [position] at h
  | cons a l ih =>
    rw [List.map_cons, List.nodup_cons] at hnd
    rw [position_cons] at h
    split at h
    · rename_i hk
      obtain rfl : 0 = i := by simpa using h
      have hrest : ∀ b ∈ l, key b ≠ k := by
        intro b hb hbk
        exact hnd.1 (List.mem_map.mpr ⟨b, hb, hbk.trans hk.symm⟩)
      rw [List.eraseIdx_cons_zero, List.filter_cons_of_neg (by simp [hk]), eq_comm]
      exact List.filter_eq_self.mpr (by simpa using hrest)
    · rename_i hk
      obtain ⟨j, hj, rfl⟩ := Option.map_eq_some_iff.mp h
      rw [List.eraseIdx_cons_succ, ih hnd.2 hj, List.filter_cons_of_pos (by simpa using hk)]

/-! ## Size -/

theorem dom_toMap (l : List α) : dom (toMap key val l) = {k | k ∈ l.map key} := by
  ext k
  simp [dom, toMap_eq_none]

theorem dom_ncard {l : List α} (hnd : (l.map key).Nodup) :
    (dom (toMap key val l)).ncard = l.length := by
  rw [dom_toMap, ← List.coe_toFinset, Set.ncard_coe_finset, List.toFinset_card_of_nodup hnd,
    List.length_map]

end KeyedList
