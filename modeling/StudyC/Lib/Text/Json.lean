import StudyC.Lib.Decimal
import Mathlib.Data.List.Forall2
import Mathlib.Data.Option.Basic

/-!
# JSON texts

A parser for the whole of RFC 8259, on bytes. A string is its bytes in UTF-8 with the escapes
resolved, a number the integer of its digits and a power of ten, and an object keeps its members in
the order of the text.
-/

open CString Decimal

namespace Json

inductive Value where
  | null
  | bool (b : Bool)
  | num (mantissa exponent : Int)
  | str (s : List UInt8)
  | arr (items : List Value)
  | obj (members : List (List UInt8 × Value))

/-- A parser takes what it reads from the front of the input. -/
abbrev Parser (α : Type) := StateT (List UInt8) Option α

def byte : Parser UInt8
  | [] => none
  | b :: r => some (b, r)

def peek : Parser UInt8
  | [] => none
  | b :: r => some (b, b :: r)

def expect (b : UInt8) : Parser Unit := do
  let c ← byte
  guard (c = b)

/-- Reads with `p` after a byte that passes the test, and nothing before any other. -/
def optional {α : Type} (test : UInt8 → Bool) (p : Parser α) (default : α) : Parser α
  | [] => some (default, [])
  | b :: r => if test b then p r else some (default, b :: r)

def isWhite (b : UInt8) : Bool := b = 32 || b = 9 || b = 10 || b = 13

def token {α : Type} (p : Parser α) : Parser α := fun input => p (input.dropWhile isWhite)

/-! ## Numbers -/

def digitRun : Parser (List UInt8) := fun input =>
  if input.takeWhile isDigit = [] then none
  else some (input.takeWhile isDigit, input.dropWhile isDigit)

def minus : Parser Bool := optional (· = 45) (pure true) false

def exponent : Parser Int := do
  let negative ← minus
  if !negative then optional (· = 43) (pure ()) ()
  let digits ← digitRun
  return applySign negative (Decimal.value digits)

def number : Parser Value := do
  let negative ← minus
  let whole ← digitRun
  -- a zero that leads stands alone
  guard (whole.length = 1 ∨ whole.head? ≠ some 48)
  let fraction ← optional (· = 46) digitRun []
  let power ← optional (fun b => b = 101 || b = 69) exponent 0
  return .num (applySign negative (Decimal.value (whole ++ fraction))) (power - fraction.length)

/-! ## Strings -/

def hexDigit : Parser Nat := do
  let b ← byte
  let v := b.toNat
  if isDigit b then return v - 48
  else if 65 ≤ v ∧ v ≤ 70 then return v - 55
  else if 97 ≤ v ∧ v ≤ 102 then return v - 87
  else failure

def hex4 : Parser Nat := do
  let a ← hexDigit
  let b ← hexDigit
  let c ← hexDigit
  let d ← hexDigit
  return ((a * 16 + b) * 16 + c) * 16 + d

/-- After a backslash and a `u`. A surrogate stands only in a pair. -/
def unicode : Parser (List UInt8) := do
  let high ← hex4
  if 0xD800 ≤ high ∧ high < 0xDC00 then
    expect 92
    expect 117
    let low ← hex4
    guard (0xDC00 ≤ low ∧ low < 0xE000)
    return String.utf8EncodeChar (.ofNat (0x10000 + (high - 0xD800) * 0x400 + (low - 0xDC00)))
  else
    guard ¬ (0xDC00 ≤ high ∧ high < 0xE000)
    return String.utf8EncodeChar (.ofNat high)

def simpleEscape (b : UInt8) : Option UInt8 :=
  if b = 34 then some 34 else if b = 92 then some 92 else if b = 47 then some 47
  else if b = 98 then some 8 else if b = 102 then some 12 else if b = 110 then some 10
  else if b = 114 then some 13
  else if b = 116 then some 9 else none

def escape : Parser (List UInt8) := do
  let b ← byte
  if b = 117 then unicode
  else match simpleEscape b with
    | some c => return [c]
    | none => failure

def character : Parser (List UInt8) := do
  let b ← byte
  if b = 92 then escape
  else
    guard (32 ≤ b.toNat)
    return [b]

/-- Up to the closing quote. -/
def characters : Nat → Parser (List UInt8)
  | 0 => failure
  | fuel + 1 => do
    let b ← peek
    if b = 34 then
      let _ ← byte
      return []
    else
      let c ← character
      let rest ← characters fuel
      return c ++ rest

def utf8 (s : List UInt8) : Prop := s.toByteArray.IsValidUTF8

instance (s : List UInt8) : Decidable (utf8 s) :=
  inferInstanceAs (Decidable (ByteArray.IsValidUTF8 _))

/-- After the opening quote. -/
def string : Parser (List UInt8) := do
  let input ← get
  let s ← characters (input.length + 1)
  guard (utf8 s)
  return s

/-! ## Values -/

section
variable {α : Type} (p : Parser α) (close : UInt8)

def items : Nat → Parser (List α)
  | 0 => failure
  | fuel + 1 => do
    let a ← p
    let b ← token byte
    if b = 44 then
      let as ← items fuel
      return a :: as
    else
      guard (b = close)
      return [a]

/-- After the opening bracket. -/
def elements : Parser (List α) := fun input =>
  match input.dropWhile isWhite with
  | [] => none
  | b :: r => if b = close then some ([], r) else items p close (input.length + 1) input

end

def member (p : Parser Value) : Parser (List UInt8 × Value) := do
  token (expect 34)
  let key ← string
  token (expect 58)
  let v ← p
  return (key, v)

def keyword (word : List UInt8) (v : Value) : Parser Value := fun input =>
  if word <+: input then some (v, input.drop word.length) else none

/-- The fuel bounds the depth. -/
def value : Nat → Parser Value
  | 0 => failure
  | fuel + 1 => token do
    let b ← peek
    if b = 34 then
      let _ ← byte
      return .str (← string)
    else if b = 91 then
      let _ ← byte
      return .arr (← elements (value fuel) 93)
    else if b = 123 then
      let _ ← byte
      return .obj (← elements (member (value fuel)) 125)
    else if b = 110 then keyword (ascii "null") .null
    else if b = 116 then keyword (ascii "true") (.bool true)
    else if b = 102 then keyword (ascii "false") (.bool false)
    else number

def parse (text : List UInt8) : Option Value :=
  match value (text.length + 1) text with
  | some (v, rest) => if rest.all isWhite then some v else none
  | none => none

/-! ## Steps -/

section
variable {α β : Type} {p : Parser α} {f : α → Parser β} {input r : List UInt8}

theorem bind_eq {a : α} (h : p input = some (a, r)) : (p >>= f) input = f a r := by
  simp [bind, StateT.bind, h]

theorem bind_eq_some {x : β × List UInt8} :
    (p >>= f) input = some x ↔ ∃ a r, p input = some (a, r) ∧ f a r = some x := by
  simp [bind, StateT.bind, Option.bind_eq_some_iff]

theorem pure_eq (a : α) : (pure a : Parser α) input = some (a, input) := rfl

theorem guard_eq_some {c : Prop} [Decidable c] {x : Unit × List UInt8} :
    (guard c : Parser Unit) input = some x ↔ c ∧ x = ((), input) := by
  unfold guard
  split
  · simp [*, pure_eq, eq_comm]
  · simp [*, failure, StateT.failure]

theorem guard_eq {c : Prop} [Decidable c] (h : c) :
    (guard c : Parser Unit) input = some ((), input) :=
  guard_eq_some.mpr ⟨h, rfl⟩

theorem token_of_not_white {b : UInt8} (hb : isWhite b = false) :
    token p (b :: r) = p (b :: r) := by
  unfold token
  rw [List.dropWhile_cons_of_neg (by simp [hb])]

theorem token_white {b : UInt8} (hb : isWhite b = true) : token p (b :: r) = token p r := by
  unfold token
  rw [List.dropWhile_cons_of_pos hb]

end

theorem expect_eq (b : UInt8) (r : List UInt8) : expect b (b :: r) = some ((), r) := by
  unfold expect
  rw [bind_eq rfl, guard_eq rfl]

theorem map_eq {α β : Type} (p : Parser α) (f : α → β) (input : List UInt8) :
    (p >>= fun a => pure (f a)) input = (p input).map fun x => (f x.1, x.2) := by
  rw [Option.map_eq_bind]
  rfl

theorem value_quote (fuel : Nat) (r : List UInt8) :
    value (fuel + 1) (34 :: r) = (string r).map fun x => (.str x.1, x.2) := by
  unfold value
  rw [token_of_not_white (by decide), bind_eq rfl, if_pos rfl, bind_eq rfl, map_eq]

theorem value_bracket (fuel : Nat) (r : List UInt8) :
    value (fuel + 1) (91 :: r) = (elements (value fuel) 93 r).map fun x => (.arr x.1, x.2) := by
  rw [value, token_of_not_white (by decide), bind_eq rfl, if_neg (by decide), if_pos rfl,
    bind_eq rfl, map_eq]

theorem value_brace (fuel : Nat) (r : List UInt8) :
    value (fuel + 1) (123 :: r) = (elements (member (value fuel)) 125 r).map fun x =>
      (.obj x.1, x.2) := by
  rw [value, token_of_not_white (by decide), bind_eq rfl, if_neg (by decide), if_neg (by decide),
    if_pos rfl, bind_eq rfl, map_eq]

/-! ## Texts of a writer -/

/-- What a writer may put behind a value: nothing, a comma or a closing bracket. -/
def Closed (r : List UInt8) : Prop := ∀ b ∈ r.head?, b = 44 ∨ b = 93 ∨ b = 125

/-- The parser reads the value from the text and stops behind it. -/
def Parses {α : Type} (p : Parser α) (text : List UInt8) (a : α) : Prop :=
  ∀ r, Closed r → p (text ++ r) = some (a, r)

theorem Closed.head {r : List UInt8} (h : Closed r) {test : UInt8 → Bool}
    (htest : test 44 = false ∧ test 93 = false ∧ test 125 = false) :
    ∀ b ∈ r.head?, test b = false := by
  intro b hb
  rcases h b hb with rfl | rfl | rfl
  · exact htest.1
  · exact htest.2.1
  · exact htest.2.2

theorem optional_default {α : Type} {test : UInt8 → Bool} {r : List UInt8}
    (h : ∀ b ∈ r.head?, test b = false) (p : Parser α) (default : α) :
    optional test p default r = some (default, r) := by
  unfold optional
  cases r with
  | nil => rfl
  | cons b r => simp [h b rfl]

theorem digitRun_eq {ds r : List UInt8} (hne : ds ≠ []) (hds : ∀ b ∈ ds, isDigit b = true)
    (hr : ∀ b ∈ r.head?, isDigit b = false) : digitRun (ds ++ r) = some (ds, r) := by
  have htake : r.takeWhile isDigit = [] ∧ r.dropWhile isDigit = r := by
    cases r with
    | nil => exact ⟨rfl, rfl⟩
    | cons b r => simp [hr b rfl]
  unfold digitRun
  rw [List.takeWhile_append_of_pos hds, List.dropWhile_append_of_pos hds, htake.1, htake.2,
    List.append_nil, if_neg hne]

theorem number_of_minus {negative : Bool} {input : List UInt8} {n : Nat} {r : List UInt8}
    (hr : Closed r) (hminus : minus input = some (negative, digits n ++ r)) :
    number input = some (.num (applySign negative n) 0, r) := by
  have hdigits := digitRun_eq (digits_ne_nil n) (digits_isDigit n) (hr.head (by decide))
  have hzero : (digits n).length = 1 ∨ (digits n).head? ≠ some 48 := by
    rcases eq_or_ne n 0 with rfl | hn
    · exact .inl (by decide)
    · exact .inr (digits_head hn)
  unfold number
  rw [bind_eq hminus, bind_eq hdigits, bind_eq (guard_eq hzero),
    bind_eq (optional_default (hr.head (by decide)) _ _),
    bind_eq (optional_default (hr.head (by decide)) _ _), List.append_nil, value_digits]
  rfl

theorem value_number {b : UInt8} (hb : b = 45 ∨ isDigit b = true) (fuel : Nat) (r : List UInt8) :
    value (fuel + 1) (b :: r) = number (b :: r) := by
  have hne : isWhite b = false ∧ b ≠ 34 ∧ b ≠ 91 ∧ b ≠ 123 ∧ b ≠ 110 ∧ b ≠ 116 ∧ b ≠ 102 := by
    rcases hb with rfl | hb
    · decide
    · refine ⟨?_, ?_, ?_, ?_, ?_, ?_, ?_⟩
      · by_contra hwhite
        simp only [isWhite, Bool.not_eq_false, Bool.or_eq_true, decide_eq_true_eq] at hwhite
        rcases hwhite with ((rfl | rfl) | rfl) | rfl <;> contradiction
      all_goals rintro rfl; contradiction
  obtain ⟨hwhite, h34, h91, h123, h110, h116, h102⟩ := hne
  unfold value
  rw [token_of_not_white hwhite, bind_eq rfl, if_neg h34, if_neg h91, if_neg h123, if_neg h110,
    if_neg h116, if_neg h102]

theorem parses_signed (fuel : Nat) (z : Int) : Parses (value (fuel + 1)) (signed z) (.num z 0) := by
  intro r hr
  obtain ⟨d, ds, hds⟩ := List.exists_cons_of_ne_nil (digits_ne_nil z.natAbs)
  have hd : isDigit d = true := digits_isDigit z.natAbs d (by simp [hds])
  rw [signed_eq]
  split
  · rename_i hneg
    have hminus : minus (45 :: (digits z.natAbs ++ r)) = some (true, digits z.natAbs ++ r) := rfl
    have hz : applySign true z.natAbs = z := by
      simp only [applySign, if_true]
      omega
    rw [List.cons_append, value_number (.inl rfl), number_of_minus hr hminus, hz]
  · rename_i hpos
    have hminus : minus (digits z.natAbs ++ r) = some (false, digits z.natAbs ++ r) := by
      apply optional_default
      rw [hds]
      rintro b hb
      obtain rfl := Option.some.inj hb
      by_contra h45
      obtain rfl : d = 45 := by simpa using h45
      contradiction
    have hz : applySign false z.natAbs = z := by
      simp only [applySign, Bool.false_eq_true, if_false]
      omega
    have hnumber := number_of_minus hr hminus
    rw [hz, hds, List.cons_append] at hnumber
    rw [hds, List.cons_append, value_number (.inr hd), hnumber]

def natural (n : Nat) : Value := .num n 0

theorem parses_natural (fuel n : Nat) : Parses (value (fuel + 1)) (digits n) (natural n) :=
  parses_signed fuel n

/-! ### Strings -/

def Plain (s : List UInt8) : Prop := ∀ b ∈ s, 32 ≤ b.toNat ∧ b ≠ 34 ∧ b ≠ 92

def quoted (s : List UInt8) : List UInt8 := 34 :: s ++ [34]

/-- The name of a member and its colon. -/
def key (name : List UInt8) : List UInt8 := quoted name ++ [58]

theorem characters_plain {s : List UInt8} (hs : Plain s) {fuel : Nat} (hfuel : s.length < fuel)
    (r : List UInt8) : characters fuel (s ++ 34 :: r) = some (s, r) := by
  induction s generalizing fuel with
  | nil =>
    obtain ⟨fuel, rfl⟩ := Nat.exists_eq_succ_of_ne_zero (Nat.ne_zero_of_lt hfuel)
    rfl
  | cons b s ih =>
    obtain ⟨⟨hcontrol, hquote, hslash⟩, hs⟩ := List.forall_mem_cons.mp hs
    obtain ⟨fuel, rfl⟩ := Nat.exists_eq_succ_of_ne_zero (Nat.ne_zero_of_lt hfuel)
    have hcharacter : character (b :: (s ++ 34 :: r)) = some ([b], s ++ 34 :: r) := by
      unfold character
      rw [bind_eq rfl, if_neg hslash, bind_eq (guard_eq hcontrol)]
      rfl
    unfold characters
    rw [List.cons_append, bind_eq rfl, if_neg hquote, bind_eq hcharacter,
      bind_eq (ih hs (by simpa using hfuel))]
    rfl

theorem utf8_of_ascii {s : List UInt8} (h : ∀ b ∈ s, b.toNat < 128) : utf8 s := by
  induction s with
  | nil => exact ByteArray.isValidUTF8_empty
  | cons b s ih =>
    obtain ⟨hb, hs⟩ := List.forall_mem_cons.mp h
    have hencode : String.utf8EncodeChar (.ofUInt8 b) = [b] := by
      have hval : (Char.ofUInt8 b).val.toNat = b.toNat := UInt8.toNat_toUInt32 b
      have hsize : (Char.ofUInt8 b).utf8Size = 1 := by
        rw [Char.utf8Size_eq_one_iff, UInt32.le_iff_toNat_le, hval]
        exact Nat.le_of_lt_succ hb
      rw [String.utf8EncodeChar_eq_singleton hsize]
      exact congrArg (fun c => [c]) (UInt8.toUInt8_toUInt32 b)
    have hfirst : ByteArray.IsValidUTF8 [b].toByteArray := by
      rw [← hencode]
      exact Char.isValidUTF8_toByteArray_utf8EncodeChar
    unfold utf8
    rw [← List.singleton_append, List.toByteArray_append]
    exact hfirst.append (ih hs)

theorem string_plain {s : List UInt8} (hs : Plain s) (hutf8 : utf8 s) (r : List UInt8) :
    string (s ++ 34 :: r) = some (s, r) := by
  have hfuel : s.length < (s ++ 34 :: r).length + 1 := by
    rw [List.length_append]
    omega
  have hread := characters_plain hs hfuel r
  unfold string
  rw [bind_eq rfl, bind_eq hread, bind_eq (guard_eq hutf8)]
  rfl

theorem parses_quoted {s : List UInt8} (hs : Plain s) (hutf8 : utf8 s) (fuel : Nat) :
    Parses (value (fuel + 1)) (quoted s) (.str s) := by
  intro r hr
  have htext : quoted s ++ r = 34 :: (s ++ 34 :: r) := by simp [quoted]
  rw [htext, value_quote, string_plain hs hutf8, Option.map_some]

theorem key_length (name : List UInt8) : (key name).length = name.length + 3 := by
  simp [key, quoted]

theorem parses_member {p : Parser Value} {name text : List UInt8} {v : Value} (hname : Plain name)
    (hutf8 : utf8 name) (h : Parses p text v) : Parses (member p) (key name ++ text) (name, v) := by
  intro r hr
  have hstring := string_plain hname hutf8 (58 :: (text ++ r))
  have hquote : token (expect 34) (34 :: (name ++ 34 :: 58 :: (text ++ r))) =
      some ((), name ++ 34 :: 58 :: (text ++ r)) := by
    rw [token_of_not_white (by decide), expect_eq]
  have hcolon : token (expect 58) (58 :: (text ++ r)) = some ((), text ++ r) := by
    rw [token_of_not_white (by decide), expect_eq]
  have htext : key name ++ text ++ r = 34 :: (name ++ 34 :: 58 :: (text ++ r)) := by
    simp [key, quoted]
  unfold member
  rw [htext, bind_eq hquote, bind_eq hstring, bind_eq hcolon, bind_eq (h r hr)]
  rfl

/-- A text without escapes that needs no more than ASCII. -/
def Word (s : List UInt8) : Prop := ∀ b ∈ s, 32 ≤ b.toNat ∧ b.toNat < 128 ∧ b ≠ 34 ∧ b ≠ 92

-- along the text, and not over all bytes
instance (s : List UInt8) : Decidable (Word s) :=
  List.decidableBAll (fun b : UInt8 => 32 ≤ b.toNat ∧ b.toNat < 128 ∧ b ≠ 34 ∧ b ≠ 92) s

theorem Word.plain {s : List UInt8} (h : Word s) : Plain s :=
  fun b hb => ⟨(h b hb).1, (h b hb).2.2⟩

theorem Word.utf8 {s : List UInt8} (h : Word s) : utf8 s :=
  utf8_of_ascii fun b hb => (h b hb).2.1

theorem Word.member {name : List UInt8} (hname : Word name) {p : Parser Value} {text : List UInt8}
    {v : Value} (h : Parses p text v) : Parses (Json.member p) (key name ++ text) (name, v) :=
  parses_member hname.plain hname.utf8 h

theorem parses_member_space {p : Parser Value} {text : List UInt8} {a : List UInt8 × Value}
    (h : Parses (member p) text a) : Parses (member p) (32 :: text) a := by
  intro r hr
  have hsame : token (expect 34) (32 :: (text ++ r)) = token (expect 34) (text ++ r) :=
    token_white rfl
  rw [List.cons_append, ← h r hr]
  unfold member
  simp only [bind, StateT.bind, hsame]

theorem value_space (fuel : Nat) (r : List UInt8) : value fuel (32 :: r) = value fuel r := by
  cases fuel with
  | zero => rfl
  | succ fuel => exact token_white rfl

theorem parses_value_space {fuel : Nat} {text : List UInt8} {v : Value}
    (h : Parses (value fuel) text v) : Parses (value fuel) (32 :: text) v := by
  intro r hr
  rw [List.cons_append, value_space]
  exact h r hr

/-! ### Sequences -/

def commas (texts : List (List UInt8)) : List UInt8 := List.intercalate [44] texts

def brackets (texts : List (List UInt8)) : List UInt8 := 91 :: commas texts ++ [93]

def braces (texts : List (List UInt8)) : List UInt8 := 123 :: commas texts ++ [125]

theorem commas_singleton (text : List UInt8) : commas [text] = text := by
  simp [commas, List.intercalate]

theorem commas_cons (text next : List UInt8) (texts : List (List UInt8)) :
    commas (text :: next :: texts) = text ++ 44 :: commas (next :: texts) := by
  simp [commas, List.intercalate]

theorem length_le_commas (texts : List (List UInt8)) :
    texts.length ≤ (commas texts).length + 1 := by
  induction texts with
  | nil => exact Nat.zero_le _
  | cons text texts ih =>
    cases texts with
    | nil => exact Nat.le_add_left 1 _
    | cons next texts =>
      simp only [commas_cons, List.length_append, List.length_cons] at ih ⊢
      omega

theorem not_mem_commas {b : UInt8} (hb : b ≠ 44) {texts : List (List UInt8)}
    (h : ∀ text ∈ texts, b ∉ text) : b ∉ commas texts := by
  induction texts with
  | nil => exact List.not_mem_nil
  | cons text texts ih =>
    obtain ⟨htext, hrest⟩ := List.forall_mem_cons.mp h
    cases texts with
    | nil => rwa [commas_singleton]
    | cons next texts =>
      rw [commas_cons, List.mem_append, List.mem_cons, not_or, not_or]
      exact ⟨htext, hb, ih hrest⟩

section
variable {α : Type} {p : Parser α} {close : UInt8} (hclose : close = 93 ∨ close = 125)
include hclose

theorem token_close (r : List UInt8) : token byte (close :: r) = some (close, r) := by
  rcases hclose with rfl | rfl <;> exact token_of_not_white (by decide)

theorem items_parses {texts : List (List UInt8)} {as : List α}
    (h : List.Forall₂ (Parses p) texts as) (hne : texts ≠ []) {fuel : Nat}
    (hfuel : texts.length ≤ fuel) (r : List UInt8) :
    items p close fuel (commas texts ++ close :: r) = some (as, r) := by
  have hcomma : ∀ r, Closed (44 :: r) := by simp [Closed]
  have hclosed : Closed (close :: r) := by
    rcases hclose with rfl | rfl <;> simp [Closed]
  have h44 : close ≠ 44 := by
    rcases hclose with rfl | rfl <;> decide
  induction h generalizing fuel with
  | nil => contradiction
  | @cons text a texts as hfirst hrest ih =>
    obtain ⟨fuel, rfl⟩ := Nat.exists_eq_succ_of_ne_zero (Nat.ne_zero_of_lt hfuel)
    unfold items
    cases texts with
    | nil =>
      obtain rfl := List.forall₂_nil_left_iff.mp hrest
      rw [commas_singleton, bind_eq (hfirst _ hclosed), bind_eq (token_close hclose r), if_neg h44,
        bind_eq (guard_eq rfl)]
      rfl
    | cons next texts =>
      have hbyte : ∀ r, token byte (44 :: r) = some (44, r) :=
        fun r => token_of_not_white (by decide)
      rw [commas_cons, List.append_assoc, List.cons_append, bind_eq (hfirst _ (hcomma _)),
        bind_eq (hbyte _), if_pos rfl, bind_eq (ih (by simp) (by simpa using hfuel))]
      rfl

/-- A parser of elements never begins at the closing bracket. -/
def Opens (p : Parser α) (close : UInt8) : Prop :=
  ∀ input x, p input = some x → ∃ b r, input.dropWhile isWhite = b :: r ∧ b ≠ close

theorem elements_parses (hp : Opens p close) {texts : List (List UInt8)} {as : List α}
    (h : List.Forall₂ (Parses p) texts as) (r : List UInt8) :
    elements p close (commas texts ++ close :: r) = some (as, r) := by
  have hwhite : isWhite close = false := by
    rcases hclose with rfl | rfl <;> decide
  unfold elements
  cases h with
  | nil => simp [commas, List.intercalate, hwhite]
  | @cons text a texts as hfirst hrest =>
    have hfuel : (text :: texts).length ≤ (commas (text :: texts) ++ close :: r).length + 1 := by
      have hlen := length_le_commas (text :: texts)
      rw [List.length_append]
      omega
    have hitems := items_parses hclose (.cons hfirst hrest) (by simp) hfuel r
    have hread : ∃ x, p (commas (text :: texts) ++ close :: r) = some x := by
      unfold items at hitems
      obtain ⟨a, r, hpa, -⟩ := bind_eq_some.mp hitems
      exact ⟨_, hpa⟩
    obtain ⟨x, hx⟩ := hread
    obtain ⟨b, rest, hdrop, hb⟩ := hp _ _ hx
    rw [hdrop]
    exact (if_neg hb).trans hitems

end

theorem value_opens (fuel : Nat) {close : UInt8} (hclose : close = 93 ∨ close = 125) :
    Opens (value fuel) close := by
  intro input x h
  cases fuel with
  | zero => simp [value, failure, StateT.failure] at h
  | succ fuel =>
    unfold value token at h
    cases hdrop : input.dropWhile isWhite with
    | nil =>
      rw [hdrop] at h
      contradiction
    | cons b r =>
      refine ⟨b, r, rfl, ?_⟩
      rintro rfl
      rw [hdrop] at h
      rcases hclose with rfl | rfl <;> contradiction

theorem member_opens (p : Parser Value) {close : UInt8} (hclose : close = 93 ∨ close = 125) :
    Opens (member p) close := by
  intro input x h
  unfold member at h
  obtain ⟨_, r, hquote, -⟩ := bind_eq_some.mp h
  unfold token at hquote
  cases hdrop : input.dropWhile isWhite with
  | nil =>
    rw [hdrop] at hquote
    contradiction
  | cons b r =>
    refine ⟨b, r, rfl, ?_⟩
    rintro rfl
    rw [hdrop] at hquote
    rcases hclose with rfl | rfl <;> contradiction

theorem parses_arr {fuel : Nat} {texts : List (List UInt8)} {vs : List Value}
    (h : List.Forall₂ (Parses (value fuel)) texts vs) :
    Parses (value (fuel + 1)) (brackets texts) (.arr vs) := by
  intro r hr
  rw [brackets, List.append_assoc, List.cons_append, value_bracket, List.singleton_append,
    elements_parses (.inl rfl) (value_opens fuel (.inl rfl)) h, Option.map_some]

theorem parses_obj {fuel : Nat} {texts : List (List UInt8)} {ms : List (List UInt8 × Value)}
    (h : List.Forall₂ (Parses (member (value fuel))) texts ms) :
    Parses (value (fuel + 1)) (braces texts) (.obj ms) := by
  intro r hr
  rw [braces, List.append_assoc, List.cons_append, value_brace, List.singleton_append,
    elements_parses (.inr rfl) (member_opens _ (.inr rfl)) h, Option.map_some]

theorem parse_of_parses {text : List UInt8} {v : Value}
    (h : Parses (value (text.length + 1)) text v) : parse text = some v := by
  have hvalue := h [] (by simp [Closed])
  rw [List.append_nil] at hvalue
  simp [parse, hvalue]

end Json
