import Mathlib.Data.List.TakeWhile
import Mathlib.Order.Basic
import Mathlib.Tactic.Common

/-!
# C strings in byte buffers

A `char` array is a `Vector UInt8 n`. It holds the string of the bytes before its first NUL, and
the bytes after that NUL are whatever an earlier write left there.
-/

namespace CString

/-- A string passed by pointer: its bytes, without the NUL that ends it. -/
structure CStr where
  bytes : List UInt8
  nonul : ∀ b ∈ bytes, b ≠ 0
  deriving DecidableEq

theorem nonul_iff {l : List UInt8} : (∀ b ∈ l, b ≠ 0) ↔ 0 ∉ l :=
  ⟨fun h hzero => h 0 hzero rfl, fun h _ hb hzero => h (hzero ▸ hb)⟩

/-- The bytes before the first NUL: what `strlen`, `strcmp` and `%s` see. -/
def cstr (l : List UInt8) : List UInt8 := l.takeWhile (· ≠ 0)

theorem cstr_nonul (l : List UInt8) : ∀ b ∈ cstr l, b ≠ 0 := by
  intro b hb
  simpa using List.mem_takeWhile_imp hb

theorem cstr_of_nonul {l : List UInt8} (h : ∀ b ∈ l, b ≠ 0) : cstr l = l :=
  List.takeWhile_eq_self_iff.mpr (by simpa using h)

theorem cstr_cons_of_ne {a : UInt8} (ha : a ≠ 0) (l : List UInt8) : cstr (a :: l) = a :: cstr l :=
  List.takeWhile_cons_of_pos (by simpa using ha)

theorem cstr_zero_cons (l : List UInt8) : cstr (0 :: l) = [] := by
  simp [cstr]

theorem cstr_eq_nil_iff {l : List UInt8} : cstr l = [] ↔ l = [] ∨ l.head? = some 0 := by
  cases l with
  | nil => simp [cstr]
  | cons a l =>
    rcases eq_or_ne a 0 with rfl | ha
    · simp [cstr_zero_cons]
    · simp [cstr_cons_of_ne ha, ha]

theorem cstr_append_zero (p t : List UInt8) : cstr (p ++ 0 :: t) = cstr p := by
  induction p with
  | nil => exact cstr_zero_cons t
  | cons b p ih =>
    rcases eq_or_ne b 0 with rfl | hb
    · rw [List.cons_append, cstr_zero_cons, cstr_zero_cons]
    · rw [List.cons_append, cstr_cons_of_ne hb, cstr_cons_of_ne hb, ih]

theorem cstr_append_nul {p : List UInt8} (h : ∀ b ∈ p, b ≠ 0) (t : List UInt8) :
    cstr (p ++ 0 :: t) = p := by
  rw [cstr_append_zero, cstr_of_nonul h]

theorem cstr_length_le (l : List UInt8) : (cstr l).length ≤ l.length :=
  (List.takeWhile_sublist _).length_le

theorem cstr_length_lt {l : List UInt8} (h : 0 ∈ l) : (cstr l).length < l.length := by
  rcases Nat.lt_or_ge (cstr l).length l.length with hlt | hge
  · exact hlt
  · have heq : cstr l = l := (List.takeWhile_sublist _).eq_of_length_le hge
    exact absurd rfl (cstr_nonul l 0 (by rwa [heq]))

theorem cstr_take (l : List UInt8) (k : Nat) : cstr (l.take k) = (cstr l).take k := by
  induction l generalizing k with
  | nil => simp [cstr]
  | cons b l ih =>
    cases k with
    | zero => simp [cstr]
    | succ k =>
      rcases eq_or_ne b 0 with rfl | hb
      · rw [List.take_succ_cons, cstr_zero_cons, cstr_zero_cons, List.take_nil]
      · rw [List.take_succ_cons, cstr_cons_of_ne hb, cstr_cons_of_ne hb, List.take_succ_cons, ih]

theorem zero_mem_of_cstr_length_lt {l : List UInt8} (h : (cstr l).length < l.length) : 0 ∈ l := by
  by_contra hnone
  rw [cstr_of_nonul (nonul_iff.mpr hnone)] at h
  omega

/-- What `%s` prints of an array, nothing if it would read past the end. -/
def readString (l : List UInt8) : Option (List UInt8) := if 0 ∈ l then some (cstr l) else none

/-! ## Comparison -/

/-- `strcmp` on two arrays: the difference of the first bytes that end or differ, nothing if one
array is over before that. -/
def strcmp : List UInt8 → List UInt8 → Option Int
  | a :: l, b :: l' => if a ≠ b ∨ a = 0 then some (a.toNat - b.toNat) else strcmp l l'
  | _, _ => none

theorem cstr_cons_ne {a b : UInt8} (h : a ≠ b) (l l' : List UInt8) :
    cstr (a :: l) ≠ cstr (b :: l') := by
  rcases eq_or_ne a 0 with rfl | ha
  · rw [cstr_zero_cons, cstr_cons_of_ne (Ne.symm h)]
    simp
  · rw [cstr_cons_of_ne ha]
    rcases eq_or_ne b 0 with rfl | hb
    · rw [cstr_zero_cons]
      simp
    · rw [cstr_cons_of_ne hb]
      simp [h]

theorem strcmp_spec {l l' : List UInt8} (hnul : 0 ∈ l) (hlen : l.length ≤ l'.length) :
    ∃ d, strcmp l l' = some d ∧ (d = 0 ↔ cstr l = cstr l') := by
  induction l generalizing l' with
  | nil => simp at hnul
  | cons a l ih =>
    cases l' with
    | nil => simp at hlen
    | cons b l' =>
      unfold strcmp
      by_cases hab : a = b
      · subst hab
        rcases eq_or_ne a 0 with rfl | ha
        · refine ⟨0, by simp, ?_⟩
          simp [cstr_zero_cons]
        · have hrest : 0 ∈ l := by simpa [Ne.symm ha] using hnul
          obtain ⟨d, hd, hiff⟩ := ih hrest (by simpa using hlen)
          refine ⟨d, by simp [ha, hd], ?_⟩
          rw [hiff, cstr_cons_of_ne ha, cstr_cons_of_ne ha]
          simp
      · refine ⟨_, if_pos (Or.inl hab), iff_of_false ?_ (cstr_cons_ne hab l l')⟩
        intro hzero
        apply hab
        apply UInt8.toNat_inj.mp
        omega

def ascii (s : String) : List UInt8 := s.toList.map fun c => c.toNat.toUInt8

/-- A string constant of the source. -/
def CStr.lit (s : String) (h : (ascii s).all (· ≠ 0) := by decide) : CStr :=
  ⟨ascii s, fun b hb => by simpa using List.all_eq_true.mp h b hb⟩

/-- `k` times the letter `a`. -/
def CStr.letters (k : Nat) : CStr :=
  ⟨List.replicate k 97, fun b hb => by rw [List.eq_of_mem_replicate hb]; decide⟩

/-! ## Bounded copies -/

/-- `strncpy(dst, src, k)`: at most `k` bytes of the string, padded with NULs up to `k`. -/
def strncpy {n : Nat} (dst : Vector UInt8 n) (src : List UInt8) (k : Nat) : Vector UInt8 n :=
  Vector.ofFn fun i => if i.val < k then src.getD i.val 0 else dst[i]

/-- `snprintf(dst, size, ..)` for a formatted text: its first `size - 1` bytes and a NUL. -/
def snprintf {n : Nat} (dst : Vector UInt8 n) (size : Nat) (text : List UInt8) : Vector UInt8 n :=
  Vector.ofFn fun i =>
    if i.val < min text.length (size - 1) then text.getD i.val 0
    else if i.val = min text.length (size - 1) ∧ 0 < size then 0
    else dst[i]

/-- `memcpy(dst, src, src.length)`, cut at the end of `dst`. -/
def memcpy {n : Nat} (dst : Vector UInt8 n) (src : List UInt8) : Vector UInt8 n :=
  Vector.ofFn fun i => if i.val < src.length then src.getD i.val 0 else dst[i]

/-- A receive of at most `n` bytes into a buffer of `n + 1`, and a NUL behind what came. -/
def recvString {n : Nat} (dst : Vector UInt8 (n + 1)) (data : List UInt8) : Vector UInt8 (n + 1) :=
  (memcpy dst (data.take n)).set (min data.length n) 0

theorem strncpy_toList {n : Nat} (dst : Vector UInt8 n) (src : List UInt8) {k : Nat} (hk : k ≤ n) :
    (strncpy dst src k).toList =
      src.take k ++ List.replicate (k - src.length) 0 ++ dst.toList.drop k := by
  apply List.ext_getElem
  · simp; omega
  · intro i h1 h2
    have hi : i < n := by simpa using h1
    simp only [strncpy, Vector.toList_ofFn, List.getElem_ofFn, List.getD_eq_getElem?_getD]
    simp only [List.getElem_append, List.length_append, List.length_take, List.length_replicate]
    by_cases hik : i < k
    · rw [if_pos hik, dif_pos (by omega)]
      by_cases his : i < src.length
      · rw [dif_pos (by omega), List.getElem?_eq_getElem his]
        simp
      · rw [dif_neg (by omega), List.getElem?_eq_none (by omega)]
        simp
    · rw [if_neg hik, dif_neg (by omega)]
      simp [show k + (i - k) = i by omega, show min k src.length + (k - src.length) = k by omega]

theorem strncpy_zeroed {n : Nat} (src : List UInt8) {k : Nat} (hk : k ≤ n) :
    (strncpy (.replicate n 0) src k).toList = src.take k ++
      List.replicate (n - min k src.length) 0 := by
  rw [strncpy_toList _ _ hk, Vector.toList_replicate, List.drop_replicate, List.append_assoc,
    List.replicate_append_replicate]
  congr 2
  omega

theorem snprintf_toList {n : Nat} (dst : Vector UInt8 n) (text : List UInt8) {size : Nat}
    (hpos : 0 < size) (hn : size ≤ n) :
    (snprintf dst size text).toList =
      text.take (size - 1) ++ 0 :: dst.toList.drop (min text.length (size - 1) + 1) := by
  apply List.ext_getElem
  · simp; omega
  · intro i h1 h2
    have hi : i < n := by simpa using h1
    simp only [snprintf, Vector.toList_ofFn, List.getElem_ofFn, List.getD_eq_getElem?_getD]
    simp only [List.getElem_append, List.length_take]
    by_cases hlt : i < min text.length (size - 1)
    · rw [if_pos hlt, dif_pos (by omega), List.getElem?_eq_getElem (by omega)]
      simp
    · rw [if_neg hlt, dif_neg (by omega)]
      by_cases heq : i = min text.length (size - 1)
      · simp [heq, hpos, Nat.min_comm]
      · rw [if_neg (by tauto), List.getElem_cons, dif_neg (by omega)]
        simp [show min text.length (size - 1) + 1 + (i - min (size - 1) text.length - 1) =
          i by omega]

theorem cstr_snprintf {n : Nat} (dst : Vector UInt8 n) (text : List UInt8) {size : Nat}
    (hpos : 0 < size) (hn : size ≤ n) (htext : ∀ b ∈ text, b ≠ 0) :
    cstr (snprintf dst size text).toList = text.take (size - 1) := by
  rw [snprintf_toList _ _ hpos hn]
  exact cstr_append_nul (fun b hb => htext b (List.mem_of_mem_take hb)) _

theorem memcpy_toList {n : Nat} (dst : Vector UInt8 n) {src : List UInt8} (h : src.length ≤ n) :
    (memcpy dst src).toList = src ++ dst.toList.drop src.length := by
  apply List.ext_getElem
  · simp; omega
  · intro i h1 h2
    simp only [memcpy, Vector.toList_ofFn, List.getElem_ofFn, List.getD_eq_getElem?_getD,
      List.getElem_append]
    split
    · rename_i hi
      rw [List.getElem?_eq_getElem hi, Option.getD_some]
    · rename_i hi
      simp [show src.length + (i - src.length) = i by omega]

theorem memcpy_zeroed {n : Nat} {src : List UInt8} (h : src.length ≤ n) :
    (memcpy (.replicate n 0) src).toList = src ++ List.replicate (n - src.length) 0 := by
  rw [memcpy_toList _ h, Vector.toList_replicate, List.drop_replicate]

theorem memcpy_get {n : Nat} (dst : Vector UInt8 n) (src : List UInt8) {i : Nat} (h : i < n) :
    (memcpy dst src)[i] = src.getD i dst[i] := by
  simp only [memcpy, Vector.getElem_ofFn]
  split
  · rename_i hi
    simp [hi]
  · rename_i hi
    rw [List.getD_eq_getElem?_getD, List.getElem?_eq_none (by omega)]
    rfl

theorem getD_eq_of_some {d : List UInt8} {i : Nat} {c : UInt8} (h : d[i]? = some c) (x : UInt8) :
    d.getD i x = c := by
  rw [List.getD_eq_getElem?_getD, h, Option.getD_some]

theorem memcpy_full {n : Nat} (dst dst' : Vector UInt8 n) {src : List UInt8} (h : n ≤ src.length) :
    memcpy dst src = memcpy dst' src := by
  apply Vector.ext
  intro i hi
  rw [memcpy_get, memcpy_get, getD_eq_of_some (List.getElem?_eq_getElem (by omega)),
    getD_eq_of_some (List.getElem?_eq_getElem (by omega))]

theorem memcpy_vector {n : Nat} (dst src : Vector UInt8 n) : memcpy dst src.toList = src := by
  rw [← Vector.toList_inj, memcpy_toList _ (by simp)]
  simp

theorem cstr_recvString {n : Nat} (dst : Vector UInt8 (n + 1)) (data : List UInt8) :
    cstr (recvString dst data).toList = cstr (data.take n) := by
  have hlen : (data.take n).length = min data.length n := by rw [List.length_take, Nat.min_comm]
  have hlist : (recvString dst data).toList =
      data.take n ++ 0 :: (dst.toList.drop (min data.length n)).drop 1 := by
    rw [recvString, Vector.toList_set, memcpy_toList _ (by omega),
      List.set_append_right _ _ (by omega), hlen, Nat.sub_self,
      List.drop_eq_getElem_cons (by rw [Vector.length_toList]; omega), List.set_cons_zero,
      List.drop_succ_cons, List.drop_zero]
  rw [hlist, cstr_append_zero]

end CString
