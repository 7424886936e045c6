import StudyC.Lib.Text.Json

/-!
# What a successful parse says about the text

A string that reads back as its own source has no escapes. And a parser that succeeds and stops
before the end of its input does the same on every longer input, so that no document is the
beginning of another one.
-/

open CString Decimal

namespace Json

/-! ## Strings that read back as their source -/

/-- What is kept from the source of a string to what it stands for. A quote is in the source only
behind a backslash, and stands for a quote that comes earlier in the string than in its source. -/
structure Reading (source s : List UInt8) : Prop where
  shorter : s.length ≤ source.length
  plain : source.length ≤ s.length → source = s ∧ Plain s
  quote : ∀ k : Nat, source[k]? = some 34 → ∃ j < k, s[j]? = some 34

theorem Reading.nil : Reading [] [] where
  shorter := Nat.le_refl 0
  plain _ := ⟨rfl, by simp [Plain]⟩
  quote k hk := by simp at hk

theorem Reading.append {source source' s s' : List UInt8} (h : Reading source s)
    (h' : Reading source' s') : Reading (source ++ source') (s ++ s') where
  shorter := by
    rw [List.length_append, List.length_append]
    exact Nat.add_le_add h.shorter h'.shorter
  plain hlen := by
    have hle := h.shorter
    have hle' := h'.shorter
    rw [List.length_append, List.length_append] at hlen
    obtain ⟨rfl, hplain⟩ := h.plain (by omega)
    obtain ⟨rfl, hplain'⟩ := h'.plain (by omega)
    exact ⟨rfl, List.forall_mem_append.mpr ⟨hplain, hplain'⟩⟩
  quote k hk := by
    have hle := h.shorter
    rcases Nat.lt_or_ge k source.length with hlt | hge
    · rw [List.getElem?_append_left hlt] at hk
      obtain ⟨j, hj, hquote⟩ := h.quote k hk
      have hjs : j < s.length := (List.getElem?_eq_some_iff.mp hquote).1
      exact ⟨j, hj, by rw [List.getElem?_append_left hjs, hquote]⟩
    · rw [List.getElem?_append_right hge] at hk
      obtain ⟨j, hj, hquote⟩ := h'.quote (k - source.length) hk
      refine ⟨s.length + j, by omega, ?_⟩
      rw [List.getElem?_append_right (by omega), Nat.add_sub_cancel_left, hquote]

theorem Reading.byte {b : UInt8} (hb : 32 ≤ b.toNat ∧ b ≠ 34 ∧ b ≠ 92) : Reading [b] [b] where
  shorter := Nat.le_refl 1
  plain _ := ⟨rfl, by simpa [Plain] using hb⟩
  quote k hk := by
    cases k with
    | zero => exact absurd (Option.some.inj hk) hb.2.1
    | succ k => simp at hk

theorem Reading.escape {b c : UInt8} (h : simpleEscape b = some c) : Reading [92, b] [c] where
  shorter := by simp
  plain hlen := by simp at hlen
  quote k hk := by
    match k with
    | 0 => simp at hk
    | 1 =>
      obtain rfl : b = 34 := Option.some.inj hk
      exact ⟨0, Nat.zero_lt_one, h.symm⟩
    | k + 2 => simp at hk

theorem Reading.unicode {digits s : List UInt8} (hlen : 4 ≤ digits.length) (hquote : 34 ∉ digits)
    (hs : s.length ≤ 4) : Reading (92 :: 117 :: digits) s where
  shorter := by
    simp only [List.length_cons]
    omega
  plain h := by
    simp only [List.length_cons] at h
    omega
  quote k hk := by
    have hmem := List.mem_of_getElem? hk
    simp [hquote] at hmem

theorem byte_eq_some {input r : List UInt8} {b : UInt8} :
    byte input = some (b, r) ↔ input = b :: r := by
  unfold byte
  cases input <;> simp

theorem peek_eq_some {input r : List UInt8} {b : UInt8} :
    peek input = some (b, r) ↔ input = r ∧ r.head? = some b := by
  unfold peek
  cases input with
  | nil => simp; rintro rfl; simp
  | cons c input =>
    constructor
    · intro h
      obtain ⟨rfl, rfl⟩ := Prod.mk.inj (Option.some.inj h)
      exact ⟨rfl, rfl⟩
    · rintro ⟨rfl, h⟩
      obtain rfl := Option.some.inj h
      rfl

theorem expect_eq_some {input r : List UInt8} {b : UInt8} {x : Unit} :
    expect b input = some (x, r) ↔ input = b :: r := by
  constructor
  · intro h
    obtain ⟨c, r', hc, hguard⟩ := bind_eq_some.mp h
    obtain ⟨rfl, heq⟩ := guard_eq_some.mp hguard
    rw [byte_eq_some.mp hc, (Prod.mk.inj heq).2]
  · rintro rfl
    exact expect_eq b r

theorem hexDigit_source {input r : List UInt8} {v : Nat} (h : hexDigit input = some (v, r)) :
    ∃ b, input = b :: r ∧ b ≠ 34 := by
  unfold hexDigit at h
  rw [bind_eq_some] at h
  obtain ⟨b, r', hb, h⟩ := h
  rw [byte_eq_some] at hb
  have hr : r' = r := by
    split at h
    · exact (Prod.mk.inj (Option.some.inj h)).2
    · split at h
      · exact (Prod.mk.inj (Option.some.inj h)).2
      · split at h
        · exact (Prod.mk.inj (Option.some.inj h)).2
        · simp [failure, StateT.failure] at h
  subst hr
  refine ⟨b, hb, ?_⟩
  rintro rfl
  simp [isDigit, failure, StateT.failure] at h

theorem hex4_source {input r : List UInt8} {v : Nat} (h : hex4 input = some (v, r)) :
    ∃ s, input = s ++ r ∧ s.length = 4 ∧ 34 ∉ s := by
  unfold hex4 at h
  rw [bind_eq_some] at h
  obtain ⟨_, _, ha, h⟩ := h
  rw [bind_eq_some] at h
  obtain ⟨_, _, hb, h⟩ := h
  rw [bind_eq_some] at h
  obtain ⟨_, _, hc, h⟩ := h
  rw [bind_eq_some] at h
  obtain ⟨_, _, hd, h⟩ := h
  obtain ⟨a, rfl, ha'⟩ := hexDigit_source ha
  obtain ⟨b, rfl, hb'⟩ := hexDigit_source hb
  obtain ⟨c, rfl, hc'⟩ := hexDigit_source hc
  obtain ⟨d, rfl, hd'⟩ := hexDigit_source hd
  obtain rfl := (Prod.mk.inj (Option.some.inj h)).2
  refine ⟨[a, b, c, d], rfl, rfl, ?_⟩
  simp [ha'.symm, hb'.symm, hc'.symm, hd'.symm]

theorem utf8EncodeChar_length_le (c : Char) : (String.utf8EncodeChar c).length ≤ 4 := by
  rw [String.length_utf8EncodeChar]
  exact c.utf8Size_le_four

theorem unicode_source {input r s : List UInt8} (h : unicode input = some (s, r)) :
    ∃ source, input = source ++ r ∧ 4 ≤ source.length ∧ 34 ∉ source ∧ s.length ≤ 4 := by
  unfold unicode at h
  rw [bind_eq_some] at h
  obtain ⟨high, r₁, hhigh, h⟩ := h
  obtain ⟨digits, rfl, hlen, hquote⟩ := hex4_source hhigh
  split at h
  · rw [bind_eq_some] at h
    obtain ⟨_, r₂, h92, h⟩ := h
    rw [bind_eq_some] at h
    obtain ⟨_, r₃, h117, h⟩ := h
    rw [bind_eq_some] at h
    obtain ⟨low, r₄, hlow, h⟩ := h
    rw [bind_eq_some] at h
    obtain ⟨_, r₅, hguard, h⟩ := h
    obtain ⟨digits', rfl, hlen', hquote'⟩ := hex4_source hlow
    rw [expect_eq_some] at h92 h117
    subst h92 h117
    obtain ⟨-, hr₅⟩ := guard_eq_some.mp hguard
    obtain ⟨rfl, rfl⟩ := Prod.mk.inj (Option.some.inj h)
    obtain rfl := (Prod.mk.inj hr₅).2
    refine ⟨digits ++ 92 :: 117 :: digits', by simp, by simp; omega, by simp [hquote, hquote'], ?_⟩
    exact utf8EncodeChar_length_le _
  · rw [bind_eq_some] at h
    obtain ⟨_, r₂, hguard, h⟩ := h
    obtain ⟨-, hr₂⟩ := guard_eq_some.mp hguard
    obtain ⟨rfl, rfl⟩ := Prod.mk.inj (Option.some.inj h)
    obtain rfl := (Prod.mk.inj hr₂).2
    exact ⟨digits, rfl, hlen.ge, hquote, utf8EncodeChar_length_le _⟩

theorem character_source {input r s : List UInt8} (hfirst : input.head? ≠ some 34)
    (h : character input = some (s, r)) : ∃ source, input = source ++ r ∧ Reading source s := by
  unfold character at h
  rw [bind_eq_some] at h
  obtain ⟨b, r₁, hb, h⟩ := h
  rw [byte_eq_some] at hb
  subst hb
  split at h
  · rename_i h92
    subst h92
    unfold escape at h
    rw [bind_eq_some] at h
    obtain ⟨c, r₂, hc, h⟩ := h
    rw [byte_eq_some] at hc
    subst hc
    split at h
    · rename_i h117
      subst h117
      obtain ⟨digits, rfl, hlen, hquote, hs⟩ := unicode_source h
      exact ⟨92 :: 117 :: digits, rfl, .unicode hlen hquote hs⟩
    · cases hsimple : simpleEscape c with
      | some d =>
        rw [hsimple] at h
        obtain ⟨rfl, rfl⟩ := Prod.mk.inj (Option.some.inj h)
        exact ⟨[92, c], rfl, .escape hsimple⟩
      | none =>
        rw [hsimple] at h
        simp [failure, StateT.failure] at h
  · rename_i h92
    rw [bind_eq_some] at h
    obtain ⟨_, r₂, hguard, h⟩ := h
    obtain ⟨hcontrol, hr₂⟩ := guard_eq_some.mp hguard
    obtain ⟨rfl, rfl⟩ := Prod.mk.inj (Option.some.inj h)
    obtain rfl := (Prod.mk.inj hr₂).2
    refine ⟨[b], rfl, .byte ⟨hcontrol, ?_, h92⟩⟩
    rintro rfl
    exact hfirst rfl

theorem characters_source {fuel : Nat} {input r s : List UInt8}
    (h : characters fuel input = some (s, r)) :
    ∃ source, input = source ++ 34 :: r ∧ Reading source s := by
  induction fuel generalizing input s with
  | zero => simp [characters, failure, StateT.failure] at h
  | succ fuel ih =>
    unfold characters at h
    rw [bind_eq_some] at h
    obtain ⟨b, r₁, hb, h⟩ := h
    obtain ⟨rfl, hhead⟩ := peek_eq_some.mp hb
    split at h
    · rename_i h34
      subst h34
      rw [bind_eq_some] at h
      obtain ⟨c, r₂, hc, h⟩ := h
      rw [byte_eq_some] at hc
      subst hc
      obtain ⟨rfl, rfl⟩ := Prod.mk.inj (Option.some.inj h)
      obtain rfl := Option.some.inj hhead
      exact ⟨[], rfl, .nil⟩
    · rename_i h34
      rw [bind_eq_some] at h
      obtain ⟨c, r₂, hc, h⟩ := h
      rw [bind_eq_some] at h
      obtain ⟨rest, r₃, hrest, h⟩ := h
      obtain ⟨rfl, rfl⟩ := Prod.mk.inj (Option.some.inj h)
      obtain ⟨first, rfl, hfirst⟩ := character_source (by rw [hhead]; simpa using h34) hc
      obtain ⟨source, rfl, hsource⟩ := ih hrest
      exact ⟨first ++ source, by simp, hfirst.append hsource⟩

theorem plain_of_string {s r r' : List UInt8} (h : string (s ++ 34 :: r) = some (s, r')) :
    Plain s ∧ utf8 s ∧ r' = r := by
  unfold string at h
  rw [bind_eq rfl, bind_eq_some] at h
  obtain ⟨_, _, hread, h⟩ := h
  rw [bind_eq_some] at h
  obtain ⟨_, _, hguard, h⟩ := h
  obtain ⟨hutf8, hr⟩ := guard_eq_some.mp hguard
  obtain ⟨rfl, rfl⟩ := Prod.mk.inj (Option.some.inj h.symm)
  obtain rfl := (Prod.mk.inj hr).2
  obtain ⟨source, hsource, hreading⟩ := characters_source hread
  have hle : source.length ≤ s.length := by
    by_contra hlt
    -- the quote behind the string would be part of the source, and the first quote of the source
    -- has none before it
    have hsame : ∀ j < s.length, source[j]? = s[j]? := by
      intro j hj
      have hget := congrArg (·[j]?) hsource
      rwa [List.getElem?_append_left hj, List.getElem?_append_left (by omega), eq_comm] at hget
    have hnone : ∀ k : Nat, source[k]? ≠ some 34 := by
      intro k
      induction k using Nat.strongRecOn with
      | _ k ih =>
        intro hk
        obtain ⟨j, hj, hquote⟩ := hreading.quote k hk
        refine ih j hj ?_
        rw [hsame j (List.getElem?_eq_some_iff.mp hquote).1, hquote]
    apply hnone s.length
    have hget := congrArg (·[s.length]?) hsource
    rw [List.getElem?_append_right (Nat.le_refl _), Nat.sub_self,
      List.getElem?_append_left (by omega)] at hget
    exact hget.symm
  obtain ⟨rfl, hplain⟩ := hreading.plain hle
  refine ⟨hplain, hutf8, ?_⟩
  have hrest := List.append_cancel_left hsource
  exact (List.cons.inj hrest).2.symm

/-! ## Longer inputs -/

/-- What `p` reads, unless it reads to the end of its input, `q` reads from any longer input. -/
structure Extends {α : Type} (p q : Parser α) : Prop where
  suffix : ∀ {input r a}, p input = some (a, r) → r <:+ input
  extend : ∀ {input r a}, p input = some (a, r) → r ≠ [] → ∀ more, q (input ++ more) =
    some (a, r ++ more)

section
variable {α β : Type}

theorem Extends.pure (a : α) : Extends (pure a : Parser α) (pure a) where
  suffix h := by
    obtain ⟨-, rfl⟩ := Prod.mk.inj (Option.some.inj h)
    exact List.suffix_refl _
  extend h _ more := by
    obtain ⟨rfl, rfl⟩ := Prod.mk.inj (Option.some.inj h)
    rfl

theorem Extends.failure (q : Parser α) : Extends (failure : Parser α) q where
  suffix h := by simp [Alternative.failure, StateT.failure] at h
  extend h := by simp [Alternative.failure, StateT.failure] at h

theorem Extends.bind {p q : Parser α} {f g : α → Parser β} (h : Extends p q)
    (hf : ∀ a, Extends (f a) (g a)) : Extends (p >>= f) (q >>= g) where
  suffix hp := by
    obtain ⟨a, r, ha, hb⟩ := bind_eq_some.mp hp
    exact ((hf a).suffix hb).trans (h.suffix ha)
  extend hp hne more := by
    obtain ⟨a, r, ha, hb⟩ := bind_eq_some.mp hp
    have hr : r ≠ [] := by
      rintro rfl
      exact hne (List.suffix_nil.mp ((hf a).suffix hb))
    rw [bind_eq (h.extend ha hr more)]
    exact (hf a).extend hb hne more

theorem Extends.ite {c : Prop} [Decidable c] {p p' q q' : Parser α} (h : Extends p q)
    (h' : Extends p' q') : Extends (if c then p else p') (if c then q else q') := by
  split
  · exact h
  · exact h'

theorem extends_guard (c : Prop) [Decidable c] : Extends (guard c : Parser Unit) (guard c) := by
  unfold guard
  exact .ite (.pure ()) (.failure _)

theorem Extends.byte : Extends byte byte where
  suffix h := by
    rw [byte_eq_some] at h
    exact h ▸ List.suffix_cons _ _
  extend h _ more := by
    rw [byte_eq_some] at h ⊢
    rw [h]
    rfl

theorem Extends.peek : Extends peek peek where
  suffix h := by
    obtain ⟨rfl, -⟩ := peek_eq_some.mp h
    exact List.suffix_refl _
  extend h hne more := by
    obtain ⟨rfl, hhead⟩ := peek_eq_some.mp h
    refine peek_eq_some.mpr ⟨rfl, ?_⟩
    rw [List.head?_append_of_ne_nil _ hne, hhead]

theorem Extends.expect (b : UInt8) : Extends (expect b) (expect b) :=
  .bind .byte fun _ => extends_guard _

theorem Extends.optional (test : UInt8 → Bool) {p q : Parser α} (h : Extends p q) (default : α) :
    Extends (optional test p default) (optional test q default) where
  suffix {input r a} hp := by
    unfold Json.optional at hp
    split at hp
    · obtain ⟨-, rfl⟩ := Prod.mk.inj (Option.some.inj hp)
      exact List.suffix_refl _
    · split at hp
      · exact (h.suffix hp).trans (List.suffix_cons _ _)
      · obtain ⟨-, rfl⟩ := Prod.mk.inj (Option.some.inj hp)
        exact List.suffix_refl _
  extend {input r a} hp hne more := by
    unfold Json.optional at hp
    split at hp
    · obtain ⟨-, rfl⟩ := Prod.mk.inj (Option.some.inj hp)
      contradiction
    · rename_i b rest
      rw [List.cons_append, Json.optional]
      split at hp
      · rename_i htest
        rw [if_pos htest]
        exact h.extend hp hne more
      · rename_i htest
        rw [if_neg htest]
        obtain ⟨rfl, rfl⟩ := Prod.mk.inj (Option.some.inj hp)
        rfl

theorem dropWhile_append {test : UInt8 → Bool} {input : List UInt8} (h : input.dropWhile test ≠ [])
    (more : List UInt8) : (input ++ more).dropWhile test = input.dropWhile test ++ more := by
  rw [List.dropWhile_append, if_neg (by simpa using h)]

theorem Extends.token {p q : Parser α} (h : Extends p q) : Extends (token p) (token q) where
  suffix hp := (h.suffix hp).trans (List.dropWhile_suffix _)
  extend {input r a} hp hne more := by
    have hdrop : input.dropWhile isWhite ≠ [] := by
      intro hnil
      have hsuffix := h.suffix hp
      rw [hnil] at hsuffix
      exact hne (List.suffix_nil.mp hsuffix)
    unfold Json.token
    rw [dropWhile_append hdrop]
    exact h.extend hp hne more

theorem Extends.digitRun : Extends digitRun digitRun where
  suffix {input r a} hp := by
    unfold Json.digitRun at hp
    split at hp
    · simp at hp
    · obtain ⟨-, rfl⟩ := Prod.mk.inj (Option.some.inj hp)
      exact List.dropWhile_suffix _
  extend {input r a} hp hne more := by
    unfold Json.digitRun at hp ⊢
    split at hp
    · simp at hp
    · rename_i hds
      obtain ⟨rfl, rfl⟩ := Prod.mk.inj (Option.some.inj hp)
      have htake : (input ++ more).takeWhile isDigit = input.takeWhile isDigit := by
        rw [List.takeWhile_append, if_neg]
        intro hlen
        have hsum :=
          congrArg List.length (List.takeWhile_append_dropWhile (p := isDigit) (l := input))
        rw [List.length_append, hlen, Nat.add_eq_left] at hsum
        exact hne (List.eq_nil_of_length_eq_zero hsum)
      rw [htake, dropWhile_append hne, if_neg hds]

theorem Extends.keyword (word : List UInt8) (v : Value) :
    Extends (keyword word v) (keyword word v) where
  suffix {input r a} hp := by
    unfold Json.keyword at hp
    split at hp
    · obtain ⟨-, rfl⟩ := Prod.mk.inj (Option.some.inj hp)
      exact List.drop_suffix _ _
    · simp at hp
  extend {input r a} hp _ more := by
    unfold Json.keyword at hp ⊢
    split at hp
    · rename_i hword
      obtain ⟨rfl, rfl⟩ := Prod.mk.inj (Option.some.inj hp)
      rw [if_pos (hword.trans (List.prefix_append _ _)),
        List.drop_append_of_le_length hword.length_le]
    · simp at hp

theorem extends_number : Extends number number := by
  have hminus : Extends minus minus := .optional _ (.pure true) false
  have hexponent : Extends exponent exponent := by
    have hdigits : ∀ negative, Extends (do return applySign negative (Decimal.value (← digitRun)))
        (do return applySign negative (Decimal.value (← digitRun))) :=
          fun negative => .bind .digitRun fun _ => .pure _
    exact .bind hminus fun negative =>
      .ite (.bind (.optional _ (.pure ()) ()) fun _ => hdigits negative) (hdigits negative)
  refine .bind hminus fun _ => .bind .digitRun fun _ => .bind (extends_guard _) fun _ => ?_
  refine .bind (.optional _ .digitRun []) fun _ => .bind (.optional _ hexponent 0) fun _ => .pure _

theorem extends_hexDigit : Extends hexDigit hexDigit :=
  .bind .byte fun _ => .ite (.pure _) (.ite (.pure _) (.ite (.pure _) (.failure _)))

theorem extends_hex4 : Extends hex4 hex4 :=
  .bind extends_hexDigit fun _ => .bind extends_hexDigit fun _ => .bind extends_hexDigit fun _ =>
    .bind extends_hexDigit fun _ => .pure _

theorem extends_unicode : Extends unicode unicode := by
  refine .bind extends_hex4 fun _ => .ite ?_ ?_
  · refine .bind (.expect 92) fun _ => .bind (.expect 117) fun _ => .bind extends_hex4 fun _ => ?_
    exact .bind (extends_guard _) fun _ => .pure _
  · exact .bind (extends_guard _) fun _ => .pure _

theorem extends_character : Extends character character := by
  have hescape : Extends escape escape := by
    refine .bind .byte fun b => .ite extends_unicode ?_
    cases simpleEscape b with
    | none => exact .failure _
    | some c => exact .pure _
  exact .bind .byte fun _ => .ite hescape (.bind (extends_guard _) fun _ => .pure _)

theorem extends_characters {fuel fuel' : Nat} (hfuel : fuel ≤ fuel') :
    Extends (characters fuel) (characters fuel') := by
  induction fuel generalizing fuel' with
  | zero => exact .failure _
  | succ fuel ih =>
    obtain ⟨fuel', rfl⟩ := Nat.exists_eq_add_of_le' (Nat.le_trans (Nat.le_add_left 1 fuel) hfuel)
    refine .bind .peek fun _ => .ite (.bind .byte fun _ => .pure _) ?_
    exact .bind extends_character fun _ => .bind (ih (Nat.le_of_succ_le_succ hfuel)) fun _ =>
      .pure _

theorem extends_string : Extends string string := by
  have hfuel : ∀ {fuel fuel'}, fuel ≤ fuel' →
      Extends (characters fuel >>= fun s => guard (utf8 s) >>= fun _ => pure s)
        (characters fuel' >>= fun s => guard (utf8 s) >>= fun _ => pure s) := fun hle =>
    .bind (extends_characters hle) fun _ => .bind (extends_guard _) fun _ => .pure _
  have hstring : ∀ input, string input =
      (characters (input.length + 1) >>= fun s => guard (utf8 s) >>= fun _ => pure s) input :=
      fun _ => rfl
  constructor
  · intro input r a hp
    rw [hstring] at hp
    exact (hfuel le_rfl).suffix hp
  · intro input r a hp hne more
    rw [hstring] at hp ⊢
    exact (hfuel (by rw [List.length_append]; omega)).extend hp hne more

theorem token_byte_append {input r : List UInt8} {b : UInt8} (h : token byte input = some (b, r))
    (more : List UInt8) : token byte (input ++ more) = some (b, r ++ more) := by
  unfold Json.token at h ⊢
  rw [byte_eq_some] at h ⊢
  rw [dropWhile_append (by rw [h]; exact List.cons_ne_nil _ _), h, List.cons_append]

section
variable {p q : Parser α} (h : Extends p q) {close : UInt8}
include h

theorem items_append {fuel fuel' : Nat} (hfuel : fuel ≤ fuel') {input r : List UInt8} {as : List α}
    (hp : items p close fuel input = some (as, r)) :
    r <:+ input ∧ ∀ more, items q close fuel' (input ++ more) = some (as, r ++ more) := by
  -- a sequence ends with its bracket, so that it reads the same even if nothing was left
  -- behind it
  induction fuel generalizing fuel' input as with
  | zero => simp [items, Alternative.failure, StateT.failure] at hp
  | succ fuel ih =>
    obtain ⟨fuel', rfl⟩ := Nat.exists_eq_add_of_le' (Nat.le_trans (Nat.le_add_left 1 fuel) hfuel)
    unfold items at hp ⊢
    obtain ⟨a, r₁, ha, hp⟩ := bind_eq_some.mp hp
    obtain ⟨b, r₂, hb, hp⟩ := bind_eq_some.mp hp
    have hr₁ : r₁ ≠ [] := by
      rintro rfl
      contradiction
    have hsuffix : r₂ <:+ input := (Extends.token .byte |>.suffix hb).trans (h.suffix ha)
    split at hp
    · rename_i hcomma
      obtain ⟨as', r₃, has, hp⟩ := bind_eq_some.mp hp
      obtain ⟨rfl, rfl⟩ := Prod.mk.inj (Option.some.inj hp)
      obtain ⟨hsuffix', hrest⟩ := ih (Nat.le_of_succ_le_succ hfuel) has
      refine ⟨hsuffix'.trans hsuffix, fun more => ?_⟩
      rw [bind_eq (h.extend ha hr₁ more), bind_eq (token_byte_append hb more), if_pos hcomma,
        bind_eq (hrest more)]
      rfl
    · rename_i hcomma
      obtain ⟨_, r₃, hguard, hp⟩ := bind_eq_some.mp hp
      obtain ⟨hclose, hr₃⟩ := guard_eq_some.mp hguard
      obtain ⟨rfl, rfl⟩ := Prod.mk.inj (Option.some.inj hp)
      obtain rfl := (Prod.mk.inj hr₃).2
      refine ⟨hsuffix, fun more => ?_⟩
      rw [bind_eq (h.extend ha hr₁ more), bind_eq (token_byte_append hb more), if_neg hcomma,
        bind_eq (guard_eq hclose)]
      rfl

theorem elements_append {input r : List UInt8} {as : List α}
    (hp : elements p close input = some (as, r)) :
    r <:+ input ∧ ∀ more, elements q close (input ++ more) = some (as, r ++ more) := by
  unfold elements at hp ⊢
  split at hp
  · simp at hp
  · rename_i b rest hdrop
    have hmore : ∀ more, (input ++ more).dropWhile isWhite = b :: (rest ++ more) := by
      intro more
      rw [dropWhile_append (by rw [hdrop]; exact List.cons_ne_nil _ _), hdrop, List.cons_append]
    simp only [hmore]
    split at hp
    · rename_i hclose
      obtain ⟨rfl, rfl⟩ := Prod.mk.inj (Option.some.inj hp)
      refine ⟨?_, fun more => if_pos hclose⟩
      exact (List.suffix_cons b rest).trans (hdrop ▸ List.dropWhile_suffix _)
    · rename_i hclose
      have hfuel : ∀ more : List UInt8, input.length + 1 ≤ (input ++ more).length + 1 := by simp
      refine ⟨(items_append h le_rfl hp).1, fun more => ?_⟩
      rw [if_neg hclose]
      exact (items_append h (hfuel more) hp).2 more

theorem extends_elements : Extends (elements p close) (elements q close) where
  suffix hp := (elements_append h hp).1
  extend hp _ := (elements_append h hp).2

end

theorem extends_member {p q : Parser Value} (h : Extends p q) : Extends (member p) (member q) :=
  .bind (.token (.expect 34)) fun _ => .bind extends_string fun _ =>
    .bind (.token (.expect 58)) fun _ =>
    .bind h fun _ => .pure _

theorem extends_value {fuel fuel' : Nat} (hfuel : fuel ≤ fuel') :
    Extends (value fuel) (value fuel') := by
  induction fuel generalizing fuel' with
  | zero => exact .failure _
  | succ fuel ih =>
    obtain ⟨fuel', rfl⟩ := Nat.exists_eq_add_of_le' (Nat.le_trans (Nat.le_add_left 1 fuel) hfuel)
    have hvalue : Extends (value fuel) (value fuel') := ih (Nat.le_of_succ_le_succ hfuel)
    refine .token
      (.bind .peek fun _ => .ite ?_ (.ite ?_ (.ite ?_ (.ite ?_ (.ite ?_ (.ite ?_ ?_))))))
    · exact .bind .byte fun _ => .bind extends_string fun _ => .pure _
    · exact .bind .byte fun _ => .bind (extends_elements hvalue) fun _ => .pure _
    · exact .bind .byte fun _ => .bind (extends_elements (extends_member hvalue)) fun _ => .pure _
    · exact .keyword _ _
    · exact .keyword _ _
    · exact .keyword _ _
    · exact extends_number

end

/-! ## Objects -/

theorem number_num {input r : List UInt8} {v : Value} (h : number input = some (v, r)) :
    ∃ mantissa exponent, v = .num mantissa exponent := by
  unfold number at h
  obtain ⟨_, _, -, h⟩ := bind_eq_some.mp h
  obtain ⟨_, _, -, h⟩ := bind_eq_some.mp h
  obtain ⟨_, _, -, h⟩ := bind_eq_some.mp h
  obtain ⟨_, _, -, h⟩ := bind_eq_some.mp h
  obtain ⟨_, _, -, h⟩ := bind_eq_some.mp h
  obtain ⟨rfl, -⟩ := Prod.mk.inj (Option.some.inj h)
  exact ⟨_, _, rfl⟩

theorem value_obj {fuel : Nat} {input r : List UInt8} {ms : List (List UInt8 × Value)}
    (h : value fuel input = some (.obj ms, r)) :
    ∃ depth rest, fuel = depth + 1 ∧ input.dropWhile isWhite = 123 :: rest ∧
      elements (member (value depth)) 125 rest = some (ms, r) := by
  have hkeyword : ∀ {word : List UInt8} {v : Value} {input : List UInt8}, keyword word v input =
      some (.obj ms, r) →
      v = .obj ms := by
    intro word v input hword
    unfold keyword at hword
    split at hword
    · exact (Prod.mk.inj (Option.some.inj hword)).1
    · simp at hword
  cases fuel with
  | zero => simp [value, failure, StateT.failure] at h
  | succ depth =>
    unfold value token at h
    obtain ⟨b, rest, hb, h⟩ := bind_eq_some.mp h
    obtain ⟨hdrop, hhead⟩ := peek_eq_some.mp hb
    split at h
    · obtain ⟨_, _, -, h⟩ := bind_eq_some.mp h
      obtain ⟨_, _, -, h⟩ := bind_eq_some.mp h
      exact Value.noConfusion (Prod.mk.inj (Option.some.inj h)).1
    split at h
    · obtain ⟨_, _, -, h⟩ := bind_eq_some.mp h
      obtain ⟨_, _, -, h⟩ := bind_eq_some.mp h
      exact Value.noConfusion (Prod.mk.inj (Option.some.inj h)).1
    split at h
    · rename_i h123
      obtain ⟨c, r₁, hc, h⟩ := bind_eq_some.mp h
      obtain ⟨ms', r₂, hms, h⟩ := bind_eq_some.mp h
      obtain ⟨hobj, rfl⟩ := Prod.mk.inj (Option.some.inj h)
      obtain rfl := Value.obj.inj hobj
      obtain rfl := byte_eq_some.mp hc
      obtain rfl := Option.some.inj hhead
      exact ⟨depth, r₁, rfl, by rw [hdrop, h123], hms⟩
    split at h
    · exact Value.noConfusion (hkeyword h)
    split at h
    · exact Value.noConfusion (hkeyword h)
    split at h
    · exact Value.noConfusion (hkeyword h)
    · obtain ⟨_, _, hnum⟩ := number_num h
      exact Value.noConfusion hnum

theorem value_obj_append {fuel fuel' : Nat} (hfuel : fuel ≤ fuel') {input r : List UInt8}
    {ms : List (List UInt8 × Value)} (h : value fuel input = some (.obj ms, r))
    (more : List UInt8) : value fuel' (input ++ more) = some (.obj ms, r ++ more) := by
  obtain ⟨depth, rest, rfl, hdrop, hms⟩ := value_obj h
  obtain ⟨depth', rfl⟩ := Nat.exists_eq_add_of_le' (Nat.le_trans (Nat.le_add_left 1 depth) hfuel)
  have hmember := extends_member (extends_value (Nat.le_of_succ_le_succ hfuel))
  have htoken : value (depth' + 1) (input ++ more) = value (depth' + 1)
      (123 :: (rest ++ more)) := by
    unfold value token
    rw [dropWhile_append (by rw [hdrop]; exact List.cons_ne_nil _ _), hdrop]
    rfl
  rw [htoken, value_brace, (elements_append hmember hms).2 more, Option.map_some]

/-! ## Elements of known texts -/

theorem fuel_pos_of_value {fuel : Nat} {input : List UInt8} {x : Value × List UInt8}
    (h : value fuel input = some x) : 0 < fuel := by
  cases fuel with
  | zero => simp [value, failure, StateT.failure] at h
  | succ fuel => exact Nat.succ_pos fuel

theorem string_of_value {fuel : Nat} {input r s : List UInt8}
    (h : value fuel (34 :: input) = some (.str s, r)) : string input = some (s, r) := by
  cases fuel with
  | zero => simp [value, failure, StateT.failure] at h
  | succ fuel =>
    rw [value_quote] at h
    obtain ⟨x, hx, heq⟩ := Option.map_eq_some_iff.mp h
    obtain ⟨hs, rfl⟩ := Prod.mk.inj heq
    rw [hx, ← Value.str.inj hs]

theorem elements_of_value {fuel : Nat} {input r : List UInt8} {vs : List Value}
    (h : value fuel (91 :: input) = some (.arr vs, r)) :
    ∃ depth, fuel = depth + 1 ∧ elements (value depth) 93 input = some (vs, r) := by
  cases fuel with
  | zero => simp [value, failure, StateT.failure] at h
  | succ fuel =>
    rw [value_bracket] at h
    obtain ⟨x, hx, heq⟩ := Option.map_eq_some_iff.mp h
    obtain ⟨hvs, rfl⟩ := Prod.mk.inj heq
    exact ⟨fuel, rfl, by rw [hx, ← Value.arr.inj hvs]⟩

theorem value_of_member {p : Parser Value} {name input r : List UInt8} {a : List UInt8 × Value}
    (hname : Word name) (h : member p (key name ++ input) = some (a, r)) :
    p input = some (a.2, r) := by
  have hquote : token (expect 34) (34 :: (name ++ 34 :: 58 :: input)) =
      some ((), name ++ 34 :: 58 :: input) := by
    rw [token_of_not_white (by decide), expect_eq]
  have hcolon : token (expect 58) (58 :: input) = some ((), input) := by
    rw [token_of_not_white (by decide), expect_eq]
  have htext : key name ++ input = 34 :: (name ++ 34 :: 58 :: input) := by simp [key, quoted]
  unfold member at h
  rw [htext, bind_eq hquote, bind_eq (string_plain hname.plain hname.utf8 _), bind_eq hcolon] at h
  obtain ⟨v, r', hv, h⟩ := bind_eq_some.mp h
  obtain ⟨rfl, rfl⟩ := Prod.mk.inj (Option.some.inj h)
  exact hv

theorem items_first {α : Type} {p : Parser α} {close : UInt8} {fuel : Nat} {input r : List UInt8}
    {a : α} {as : List α} (h : items p close fuel input = some (a :: as, r)) :
    ∃ r', p input = some (a, r') := by
  cases fuel with
  | zero => simp [items, failure, StateT.failure] at h
  | succ fuel =>
    unfold items at h
    obtain ⟨a', r₁, ha, h⟩ := bind_eq_some.mp h
    obtain ⟨b, r₂, -, h⟩ := bind_eq_some.mp h
    split at h
    · obtain ⟨as', r₃, -, h⟩ := bind_eq_some.mp h
      obtain ⟨hcons, -⟩ := Prod.mk.inj (Option.some.inj h)
      obtain ⟨rfl, -⟩ := List.cons.inj hcons
      exact ⟨r₁, ha⟩
    · obtain ⟨_, r₃, -, h⟩ := bind_eq_some.mp h
      obtain ⟨hcons, -⟩ := Prod.mk.inj (Option.some.inj h)
      obtain ⟨rfl, -⟩ := List.cons.inj hcons
      exact ⟨r₁, ha⟩

theorem elements_items {α : Type} {p : Parser α} {close : UInt8} {input r : List UInt8} {a : α}
    {as : List α} (h : elements p close input = some (a :: as, r)) :
    items p close (input.length + 1) input = some (a :: as, r) := by
  unfold elements at h
  split at h
  · simp at h
  · split at h
    · simp at h
    · exact h

theorem value_of_braces {fuel : Nat} {name text more r : List UInt8} {texts : List (List UInt8)}
    {a : List UInt8 × Value} {ms : List (List UInt8 × Value)} (hname : Word name)
    (h : value fuel (braces ((key name ++ text) :: texts) ++ more) = some (.obj (a :: ms), r)) :
    ∃ depth tail r', fuel = depth + 1 ∧ value depth (text ++ tail) = some (a.2, r') := by
  obtain ⟨tail, htail⟩ : ∃ tail, braces ((key name ++ text) :: texts) ++ more =
      123 :: (key name ++ (text ++ tail)) := by
    unfold braces
    cases texts with
    | nil => exact ⟨125 :: more, by simp [commas_singleton]⟩
    | cons next texts =>
      exact ⟨44 :: (commas (next :: texts) ++ 125 :: more), by simp [commas_cons]⟩
  obtain ⟨depth, rest, rfl, hdrop, hms⟩ := value_obj h
  rw [htail, List.dropWhile_cons_of_neg (by decide)] at hdrop
  obtain rfl := (List.cons.inj hdrop).2
  obtain ⟨r', hmember⟩ := items_first (elements_items hms)
  exact ⟨depth, tail, r', rfl, value_of_member hname hmember⟩

theorem good_of_items {α β : Type} {p : Parser β} {close : UInt8} {text : α → List UInt8}
    {val : α → β} {Good : α → Prop} (hinv : ∀ {x r r'}, p (text x ++ r) = some (val x, r') → Good x)
    (hfwd : ∀ {x}, Good x → Parses p (text x) (val x)) {xs : List α} {fuel : Nat}
    {r r' : List UInt8}
    (h : items p close fuel (commas (xs.map text) ++ close :: r) = some (xs.map val, r')) :
    ∀ x ∈ xs, Good x := by
  -- if a text reads back as its value only when it is good, then a sequence of texts reads
  -- back as the sequence of their values only when all of them are
  induction xs generalizing fuel with
  | nil => exact List.forall_mem_nil _
  | cons x rest ih =>
    rw [List.map_cons] at h
    obtain ⟨r₁, hfirst⟩ := items_first h
    cases rest with
    | nil =>
      rw [List.map_nil, commas_singleton] at hfirst
      simpa using hinv hfirst
    | cons y rest =>
      rw [List.map_cons, commas_cons, List.append_assoc, List.cons_append] at hfirst h
      have hgood := hinv hfirst
      refine List.forall_mem_cons.mpr ⟨hgood, ?_⟩
      have hread :=
        hfwd hgood (44 :: (commas (text y :: rest.map text) ++ close :: r)) (by simp [Closed])
      have hcomma : ∀ r, token byte (44 :: r) = some (44, r) :=
        fun r => token_of_not_white (by decide)
      cases fuel with
      | zero => simp [items, failure, StateT.failure] at h
      | succ fuel =>
        unfold items at h
        rw [bind_eq hread, bind_eq (hcomma _), if_pos rfl] at h
        obtain ⟨as, r₂, has, h⟩ := bind_eq_some.mp h
        obtain ⟨hcons, rfl⟩ := Prod.mk.inj (Option.some.inj h)
        obtain ⟨-, rfl⟩ := List.cons.inj hcons
        exact ih has

theorem good_of_brackets {α : Type} {text : α → List UInt8} {val : α → Value}
    {Good : Nat → α → Prop}
    (hinv : ∀ {depth x r r'}, value depth (text x ++ r) = some (val x, r') → Good depth x)
    (hfwd : ∀ {depth x}, Good depth x → Parses (value depth) (text x) (val x)) {xs : List α}
    {fuel : Nat} {r r' : List UInt8}
    (h : value fuel (brackets (xs.map text) ++ r) = some (.arr (xs.map val), r')) :
    ∃ depth, ∀ x ∈ xs, Good depth x := by
  rw [brackets, List.append_assoc, List.cons_append, List.singleton_append] at h
  obtain ⟨depth, -, helements⟩ := elements_of_value h
  refine ⟨depth, ?_⟩
  cases xs with
  | nil => exact List.forall_mem_nil _
  | cons x xs => exact good_of_items hinv hfwd (elements_items helements)

theorem parse_take_obj {text : List UInt8} {ms : List (List UInt8 × Value)} {k : Nat}
    (h : parse (text.take k) = some (.obj ms)) :
    ∃ rest, value (text.length + 1) text = some (.obj ms, rest) ∧
      (rest = [] → text.length ≤ k) := by
  unfold parse at h
  split at h
  · rename_i v rest hvalue
    split at h
    · obtain rfl := Option.some.inj h
      have hfuel : (text.take k).length + 1 ≤ text.length + 1 :=
        Nat.succ_le_succ (List.length_take_le' k text)
      have hwhole := value_obj_append hfuel hvalue (text.drop k)
      rw [List.take_append_drop] at hwhole
      refine ⟨_, hwhole, ?_⟩
      intro hnil
      exact List.drop_eq_nil_iff.mp (List.append_eq_nil_iff.mp hnil).2
    · simp at h
  · simp at h

end Json
