import Mathlib.Algebra.GroupWithZero.Nat
import Mathlib.Data.List.DropRight
import StudyC.Lib.CString

/-!
# Decimal numbers in bytes

What `%u`, `%lu` and `%ld` print, and what `strtol` reads. `strtol` takes an optional sign and all
digits that follow, and clamps what a `long` cannot hold.
-/

open CString

namespace Decimal

def isDigit (b : UInt8) : Bool := 48 ≤ b.toNat && b.toNat ≤ 57

/-- The number that digits stand for. -/
def value (l : List UInt8) : Nat := l.foldl (fun v b => 10 * v + (b.toNat - 48)) 0

theorem value_concat (l : List UInt8) (b : UInt8) :
    value (l ++ [b]) = 10 * value l + (b.toNat - 48) := by
  simp [value, List.foldl_append]

/-! ## Printing -/

def digit (d : Nat) : UInt8 := .ofNat (48 + d)

/-- `%u` and `%lu`. -/
def digits (n : Nat) : List UInt8 := ascii (toString n)

/-- `%d` and `%ld`. -/
def signed (z : Int) : List UInt8 := ascii (toString z)

theorem toNat_digit {d : Nat} (hd : d < 10) : (digit d).toNat = 48 + d := by
  rw [digit, UInt8.toNat_ofNat']
  omega

theorem isDigit_digit {d : Nat} (hd : d < 10) : isDigit (digit d) = true := by
  simp [isDigit, toNat_digit hd]
  omega

theorem digits_toDigits (n : Nat) :
    digits n = (Nat.toDigits 10 n).map fun c => c.toNat.toUInt8 := by
  rw [← Nat.toList_repr]
  rfl

theorem digits_lt {n : Nat} (hn : n < 10) : digits n = [digit n] := by
  rw [digits_toDigits, Nat.toDigits_of_lt_base hn, List.map_singleton,
    Nat.toNat_digitChar_of_lt_ten hn]
  rfl

theorem digits_ge {n : Nat} (hn : 10 ≤ n) : digits n = digits (n / 10) ++ [digit (n % 10)] := by
  rw [digits_toDigits, digits_toDigits, Nat.toDigits_eq_if (by decide), if_neg (by omega),
    List.map_append, List.map_singleton, Nat.toNat_digitChar_of_lt_ten (Nat.mod_lt _ (by decide))]
  rfl

theorem digits_induction {motive : Nat → Prop} (one : ∀ n < 10, motive n)
    (more : ∀ n, 10 ≤ n → motive (n / 10) → motive n) (n : Nat) : motive n := by
  induction n using Nat.strongRecOn with
  | _ n ih =>
    rcases Nat.lt_or_ge n 10 with hlt | hge
    · exact one n hlt
    · exact more n hge (ih (n / 10) (by omega))

theorem digits_ne_nil (n : Nat) : digits n ≠ [] := by
  rcases Nat.lt_or_ge n 10 with hlt | hge
  · simp [digits_lt hlt]
  · simp [digits_ge hge]

theorem digits_isDigit (n : Nat) : ∀ b ∈ digits n, isDigit b = true := by
  induction n using digits_induction with
  | one n hn => simp [digits_lt hn, isDigit_digit hn]
  | more n hn ih =>
    intro b hb
    rw [digits_ge hn, List.mem_append, List.mem_singleton] at hb
    rcases hb with hb | rfl
    · exact ih b hb
    · exact isDigit_digit (Nat.mod_lt _ (by decide))

theorem value_digits (n : Nat) : value (digits n) = n := by
  induction n using digits_induction with
  | one n hn => simp [digits_lt hn, value, toNat_digit hn]
  | more n hn ih =>
    rw [digits_ge hn, value_concat, ih, toNat_digit (Nat.mod_lt _ (by decide))]
    omega

theorem digits_head {n : Nat} (hn : n ≠ 0) : (digits n).head? ≠ some 48 := by
  induction n using digits_induction with
  | one n hlt =>
    rw [digits_lt hlt]
    intro hhead
    have hzero := congrArg UInt8.toNat (Option.some.inj hhead)
    rw [toNat_digit hlt] at hzero
    simp at hzero
    omega
  | more n hge ih =>
    rw [digits_ge hge, List.head?_append_of_ne_nil _ (digits_ne_nil _)]
    exact ih (by omega)

theorem digits_nonul (n : Nat) : ∀ b ∈ digits n, b ≠ 0 := by
  rintro b hb rfl
  have hdigit := digits_isDigit n 0 hb
  contradiction

theorem digits_length_le {n k : Nat} (hk : 0 < k) (hn : n < 10 ^ k) : (digits n).length ≤ k := by
  rw [digits_toDigits, List.length_map]
  exact (Nat.length_toDigits_le_iff (by decide) hk).mpr hn

theorem signed_eq (z : Int) :
    signed z = if z < 0 then 45 :: digits z.natAbs else digits z.natAbs := by
  cases z with
  | ofNat n => rfl
  | negSucc n =>
    have hminus : signed (Int.negSucc n) = ("-" ++ toString (n + 1)).toList.map fun c =>
        c.toNat.toUInt8 := rfl
    rw [if_pos (Int.negSucc_lt_zero n), hminus, String.toList_append, List.map_append]
    rfl

theorem signed_length_le {z : Int} {k : Nat} (hk : 0 < k) (hz : z.natAbs < 10 ^ k) :
    (signed z).length ≤ k + 1 := by
  have hlen := digits_length_le hk hz
  rw [signed_eq]
  split
  · simpa using hlen
  · exact Nat.le_succ_of_le hlen

theorem signed_nonul (z : Int) : ∀ b ∈ signed z, b ≠ 0 := by
  rw [signed_eq]
  split
  · exact List.forall_mem_cons.mpr ⟨by decide, digits_nonul _⟩
  · exact digits_nonul _

/-! ## Reading -/

/-- `isspace` in the C locale. -/
def isSpace (b : UInt8) : Bool := b.toNat = 32 || (9 ≤ b.toNat && b.toNat ≤ 13)

/-- An optional sign: whether it is a minus, and what follows it. -/
def takeSign : List UInt8 → Bool × List UInt8
  | [] => (false, [])
  | b :: l => if b = 45 then (true, l) else if b = 43 then (false, l) else (false, b :: l)

def longMax : Int := 9223372036854775807

def longMin : Int := -9223372036854775808

def clamp (v : Int) : Int := max longMin (min v longMax)

def applySign (minus : Bool) (n : Nat) : Int := if minus then -n else n

/-- `strtol(s, &endptr, 10)`: the number, and the string that `endptr` is set to. Without a digit
that is `s`. -/
def strtol (s : List UInt8) : Int × List UInt8 :=
  let (minus, l) := takeSign (s.dropWhile isSpace)
  let ds := l.takeWhile isDigit
  if ds = [] then (0, s) else (clamp (applySign minus (value ds)), l.dropWhile isDigit)

/-- White space, an optional sign, and one or more digits up to the end. -/
def Numeral (s : List UInt8) (v : Int) : Prop :=
  ∃ ws sgn ds, s = ws ++ sgn ++ ds ∧ (∀ b ∈ ws, isSpace b = true) ∧
    (sgn = [] ∨ sgn = [43] ∨ sgn = [45]) ∧
    ds ≠ [] ∧ (∀ b ∈ ds, isDigit b = true) ∧ v = applySign (sgn = [45]) (value ds)

theorem isDigit_not_space {b : UInt8} (h : isDigit b = true) : isSpace b = false := by
  simp only [isDigit, isSpace, Bool.and_eq_true, decide_eq_true_eq, Bool.or_eq_false_iff] at h ⊢
  simp
  omega

theorem takeSign_digit {b : UInt8} (h : isDigit b = true) (l : List UInt8) :
    takeSign (b :: l) = (false, b :: l) := by
  have hminus : b ≠ 45 := by
    rintro rfl
    simp [isDigit] at h
  have hplus : b ≠ 43 := by
    rintro rfl
    simp [isDigit] at h
  rw [takeSign, if_neg hminus, if_neg hplus]

theorem takeSign_cases (l : List UInt8) :
    ∃ sgn, l = sgn ++ (takeSign l).2 ∧ (sgn = [] ∨ sgn = [43] ∨ sgn = [45]) ∧
      (takeSign l).1 = decide (sgn = [45]) := by
  cases l with
  | nil => exact ⟨[], rfl, Or.inl rfl, rfl⟩
  | cons b l =>
    by_cases hminus : b = 45
    · exact ⟨[45], by simp [takeSign, hminus], by simp, by simp [takeSign, hminus]⟩
    · by_cases hplus : b = 43
      · exact ⟨[43], by simp [takeSign, hplus], by simp, by simp [takeSign, hplus]⟩
      · exact ⟨[], by simp [takeSign, hminus, hplus], Or.inl rfl, by simp [takeSign, hminus, hplus]⟩

theorem strtol_numeral {s : List UInt8} {v : Int} (h : Numeral s v) : strtol s = (clamp v, []) := by
  obtain ⟨ws, sgn, ds, rfl, hws, hsgn, hne, hds, rfl⟩ := h
  obtain ⟨d, ds', rfl⟩ := List.exists_cons_of_ne_nil hne
  have hd : isDigit d = true := hds d (by simp)
  -- the sign, or the first digit, ends the white space
  have hsign : takeSign ((ws ++ sgn ++ (d :: ds')).dropWhile isSpace) =
      (decide (sgn = [45]), d :: ds') := by
    rw [List.append_assoc, List.dropWhile_append_of_pos hws]
    rcases hsgn with rfl | rfl | rfl
    · rw [List.nil_append, List.dropWhile_cons_of_neg (by simp [isDigit_not_space hd]),
        takeSign_digit hd]
      rfl
    · rfl
    · rfl
  have htake : (d :: ds').takeWhile isDigit = d :: ds' := List.takeWhile_eq_self_iff.mpr hds
  have hdrop : (d :: ds').dropWhile isDigit = [] := List.dropWhile_eq_nil_iff.mpr hds
  unfold strtol
  simp only [hsign, htake, hdrop, reduceCtorEq, if_false]

theorem numeral_of_strtol {s : List UInt8} (hend : (strtol s).2 = []) (hne : (strtol s).1 ≠ 0) :
    ∃ v, Numeral s v := by
  unfold strtol at hend hne
  dsimp only at hend hne
  split at hend
  · rename_i hnone
    simp [hnone] at hne
  · rename_i hsome
    obtain ⟨sgn, hl, hsgn, -⟩ := takeSign_cases (s.dropWhile isSpace)
    have hdigits : ∀ b ∈ (takeSign (s.dropWhile isSpace)).2, isDigit b = true :=
      List.dropWhile_eq_nil_iff.mp hend
    refine ⟨_, s.takeWhile isSpace, sgn, (takeSign (s.dropWhile isSpace)).2, ?_, ?_, hsgn, ?_,
      hdigits, rfl⟩
    · rw [List.append_assoc, ← hl, List.takeWhile_append_dropWhile]
    · intro b hb
      exact List.mem_takeWhile_imp hb
    · intro hnil
      simp [hnil] at hsome

theorem clamp_eq {v : Int} (hmin : longMin ≤ v) (hmax : v ≤ longMax) : clamp v = v := by
  unfold clamp
  omega

theorem strtol_accepts {s : List UInt8} {m : Int} (hm : m < longMax) :
    (strtol s).2 = [] ∧ 0 < (strtol s).1 ∧ (strtol s).1 ≤ m ↔ ∃ v, Numeral s v ∧ 0 < v ∧ v ≤ m := by
  constructor
  · rintro ⟨hend, hpos, hle⟩
    obtain ⟨v, hv⟩ := numeral_of_strtol hend (by omega)
    rw [strtol_numeral hv] at hpos hle
    refine ⟨v, hv, ?_⟩
    unfold clamp longMin longMax at *
    omega
  · rintro ⟨v, hv, hpos, hle⟩
    rw [strtol_numeral hv, clamp_eq (by unfold longMin; omega) (by omega)]
    exact ⟨rfl, hpos, hle⟩

end Decimal
