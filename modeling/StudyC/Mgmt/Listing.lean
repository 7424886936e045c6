import StudyC.Lib.Appends
import StudyC.Lib.Text.Json
import StudyC.Mgmt.NameReads

/-!
# The buffer of `handler_list`

The opening text, the entries with commas between them and the closing text go into the caller's
buffer, each at the sum of the lengths before it. The sum is compared with the size of the buffer
only behind an entry.
-/

open CString Decimal Appends Json

namespace StudyC.Mgmt.Listing

variable {H X : Type}

/-- The text of an entry with a name. -/
def entryWith (e : EventHandlerEntry H X) (name : List UInt8) : List UInt8 :=
  ascii "\x7b" ++ key (ascii "module") ++ quoted name ++
    ascii "," ++ key (ascii "command") ++ quoted (mgmtCommandStr e.cmdType) ++
    ascii "," ++ key (ascii "invocations") ++ digits e.invocationCount.toNat ++
    ascii "," ++ key (ascii "avg_latency_us") ++ digits e.avgLatency.toNat ++ ascii "\x7d"

def entryText (e : EventHandlerEntry H X) : Option (List UInt8) :=
  (readString e.moduleName.toList).map (entryWith e)

def opening : List UInt8 := ascii "\x7b" ++ key (ascii "handlers") ++ ascii " ["

def closing (r : EventHandlerRegistry H X) : List UInt8 :=
  ascii "], " ++ key (ascii "total_dispatches") ++ ascii " " ++ digits r.totalDispatches.toNat ++
    ascii ", " ++ key (ascii "total_failures") ++ ascii " " ++ digits r.totalFailures.toNat ++
    ascii "\x7d"

/-- The loop from entry `i` on, and whether it ends with the return of the overflow. -/
def loop (bufSize : UInt64) : Nat → List (EventHandlerEntry H X) → Chain → Option (Bool × Chain)
  | _, [], s => some (false, s)
  | i, e :: rest, s => do
    let s ← if i > 0 then s.append bufSize (ascii ",") else some s
    let text ← entryText e
    let s ← s.append bufSize text
    if ← s.full bufSize then return (true, s)
    loop bufSize (i + 1) rest s

/-- For a buffer that is not `NULL`. The result has the calls on the buffer, and nothing if a name
does not end or an `int` overflows. -/
def handlerList (r : EventHandlerRegistry H X) (bufSize : UInt64) : Option (Int × Chain) :=
  if bufSize = 0 then some (-1, .start)
  else do
    let s ← Chain.start.append bufSize opening
    let (overflow, s) ← loop bufSize 0 r.entries.live s
    if overflow then return (-1, s)
    return (r.entries.count, s.print bufSize (closing r))

/-- The function returns, and every byte it stores is in the buffer. -/
def Bounded (r : EventHandlerRegistry H X) (bufSize : UInt64) : Prop :=
  ∃ ret s, handlerList r bufSize = some (ret, s) ∧ s.Inside bufSize

/-! ## Texts -/

def name (e : EventHandlerEntry H X) : List UInt8 := cstr e.moduleName.toList

def text (e : EventHandlerEntry H X) : List UInt8 := entryWith e (name e)

/-- What holds of the entries that are stored: the name ends in its array. -/
def Ends (e : EventHandlerEntry H X) : Prop := 0 ∈ e.moduleName.toList

theorem entryText_eq {e : EventHandlerEntry H X} (h : Ends e) : entryText e = some (text e) := by
  unfold entryText readString
  rw [if_pos (show 0 ∈ e.moduleName.toList from h)]
  rfl

theorem opening_length : opening.length = 14 := by decide

theorem mgmtCommandStr_length (c : UInt8) : (mgmtCommandStr c).length ≤ 16 := by
  unfold mgmtCommandStr
  split <;> decide

theorem text_length {e : EventHandlerEntry H X} (h : Ends e) : (text e).length ≤ 200 := by
  have hname : (name e).length < 64 := by
    have hlt := cstr_length_lt h
    rwa [Vector.length_toList] at hlt
  have hcommand := mgmtCommandStr_length e.cmdType
  have hcount : (digits e.invocationCount.toNat).length ≤ 10 :=
    digits_length_le (by decide) (Nat.lt_trans e.invocationCount.toNat_lt (by decide))
  have havg : (digits e.avgLatency.toNat).length ≤ 20 :=
    digits_length_le (by decide) (Nat.lt_trans e.avgLatency.toNat_lt (by decide))
  have hwords :
      (ascii "\x7b" ++ key (ascii "module") ++ ascii "," ++ key (ascii "command") ++ ascii "," ++
      key (ascii "invocations") ++ ascii "," ++ key (ascii "avg_latency_us") ++
      ascii "\x7d").length ≤ 60 := by decide
  simp only [text, entryWith, quoted, List.length_append, List.length_cons,
    List.length_nil] at hwords ⊢
  omega

/-! ## The loop -/

def separator (i : Nat) : List (List UInt8) := if i > 0 then [ascii ","] else []

/-- What the loop appends from entry `i` on. -/
def joined : Nat → List (EventHandlerEntry H X) → List UInt8
  | _, [] => []
  | i, e :: rest => (separator i).flatten ++ text e ++ joined (i + 1) rest

theorem separator_length (i : Nat) : (separator i).flatten.length ≤ 1 := by
  unfold separator
  split <;> decide

theorem loop_cons {e : EventHandlerEntry H X} (h : Ends e) (bufSize : UInt64) (i : Nat)
    (rest : List (EventHandlerEntry H X)) (s : Chain) :
    loop bufSize i (e :: rest) s = (s.appendAll bufSize (separator i ++ [text e])).bind fun t =>
      (t.full bufSize).bind fun full => if full then some (true, t)
        else loop bufSize (i + 1) rest t := by
  have hseparator : (if i > 0 then s.append bufSize (ascii ",") else some s) =
      s.appendAll bufSize (separator i) := by
    unfold separator
    split
    · exact (appendAll_singleton _ _ _).symm
    · rfl
  rw [appendAll_append, ← hseparator, loop, entryText_eq h]
  by_cases hi : i > 0
  · simp only [if_pos hi, appendAll_singleton, Option.bind_assoc, Option.bind_eq_bind,
      Option.bind_some, Option.pure_def]
  · simp only [if_neg hi, appendAll_singleton, Option.bind_eq_bind, Option.bind_some,
      Option.pure_def]

theorem loop_result {bufSize : UInt64} (hpos : 0 < bufSize.toNat)
    {es : List (EventHandlerEntry H X)} (hends : ∀ e ∈ es, Ends e)
    (hdefined : es = [] ∨ intOf bufSize ≠ -2147483648) {i : Nat} {s : Chain} {before : List UInt8}
    (hs : s.Renders bufSize before) (hint : s.offset + 201 * es.length ≤ intMax) :
    ∃ overflow t, loop bufSize i es s = some (overflow, t) ∧
      (overflow = true ↔ es ≠ [] ∧ intOf bufSize - 1 ≤ (before ++ joined i es).length) ∧
      (overflow = false → t.Renders bufSize (before ++ joined i es)) := by
  induction es generalizing i s before with
  | nil => exact ⟨false, s, rfl, by simp, fun _ => by simpa [joined] using hs⟩
  | cons e rest ih =>
    obtain ⟨he, hrest⟩ := List.forall_mem_cons.mp hends
    have hint' : intOf bufSize ≠ -2147483648 := hdefined.resolve_left (by simp)
    have hlen : (separator i ++ [text e]).flatten.length ≤ 201 := by
      have htext := text_length he
      have hseparator := separator_length i
      rw [List.flatten_append, List.flatten_singleton, List.length_append]
      omega
    rw [List.length_cons] at hint
    obtain ⟨t, ht⟩ : ∃ t, s.appendAll bufSize (separator i ++ [text e]) = some t :=
      appendAll_isSome (by omega)
    have hrenders := hs.appendAll hpos ht
    have hoffset := appendAll_offset ht
    have hjoined : before ++ joined i (e :: rest) =
        before ++ (separator i ++ [text e]).flatten ++ joined (i + 1) rest := by
      simp [joined]
    have hfull : t.full bufSize = some (decide (intOf bufSize - 1 ≤ t.offset)) := if_neg hint'
    rw [loop_cons he, ht, Option.bind_some, hfull, Option.bind_some, hjoined]
    -- the texts only get longer, so an overflow here is one at the end too
    by_cases hroom : intOf bufSize - 1 ≤ t.offset
    · refine ⟨true, t, by simp [hroom], ?_, by simp⟩
      rw [hrenders.offset] at hroom
      simp only [List.length_append] at hroom ⊢
      simp only [true_iff, ne_eq, reduceCtorEq, not_false_eq_true, true_and]
      omega
    · obtain ⟨overflow, t', hloop, hoverflow, hall⟩ :=
        ih hrest (.inr hint') (i := i + 1) hrenders (by omega)
      refine ⟨overflow, t', by simpa [hroom] using hloop, ?_, hall⟩
      rw [hoverflow]
      simp only [ne_eq, reduceCtorEq, not_false_eq_true, true_and]
      constructor
      · exact And.right
      · intro hle
        refine ⟨?_, hle⟩
        rintro rfl
        rw [joined, List.append_nil, ← hrenders.offset] at hle
        exact hroom hle

theorem loop_undefined {bufSize : UInt64} (hint : intOf bufSize = -2147483648)
    {es : List (EventHandlerEntry H X)} (hne : es ≠ []) (hends : ∀ e ∈ es, Ends e) (i : Nat)
    (s : Chain) : loop bufSize i es s = none := by
  obtain ⟨e, rest, rfl⟩ := List.exists_cons_of_ne_nil hne
  rw [loop_cons (hends e (.head rest))]
  simp [Chain.full, hint]

section
variable {bufSize : UInt64} {es : List (EventHandlerEntry H X)} (hends : ∀ e ∈ es, Ends e)
include hends

theorem inside_of_loop {i : Nat} {s t : Chain} {overflow : Bool}
    (h : loop bufSize i es s = some (overflow, t)) (ht : t.Inside bufSize) :
    s.Inside bufSize ∧ (es ≠ [] → s.offset ≤ bufSize.toNat) := by
  induction es generalizing i s with
  | nil =>
    obtain ⟨-, rfl⟩ := Prod.mk.inj (Option.some.inj h)
    exact ⟨ht, fun hne => absurd rfl hne⟩
  | cons e rest ih =>
    obtain ⟨he, hrest⟩ := List.forall_mem_cons.mp hends
    rw [loop_cons he, Option.bind_eq_some_iff] at h
    obtain ⟨m, hm, h⟩ := h
    obtain ⟨full, -, h⟩ := Option.bind_eq_some_iff.mp h
    have hinside : m.Inside bufSize := by
      split at h
      · obtain ⟨-, rfl⟩ := Prod.mk.inj (Option.some.inj h)
        exact ht
      · exact (ih hrest h).1
    obtain ⟨hs, hoffset⟩ := (appendAll_concat_inside_iff hm).mp hinside
    exact ⟨hs, fun _ => by omega⟩

theorem loop_inside {i : Nat} {s t : Chain} {overflow : Bool}
    (h : loop bufSize i es s = some (overflow, t)) (hs : s.Inside bufSize)
    (hroom : i = 0 ∧ s.offset ≤ bufSize.toNat ∨ s.offset + 1 < bufSize.toNat) :
    t.Inside bufSize ∧ (overflow = false → t.offset ≤ bufSize.toNat) := by
  induction es generalizing i s with
  | nil =>
    obtain ⟨rfl, rfl⟩ := Prod.mk.inj (Option.some.inj h)
    exact ⟨hs, fun _ => by omega⟩
  | cons e rest ih =>
    obtain ⟨he, hrest⟩ := List.forall_mem_cons.mp hends
    rw [loop_cons he, Option.bind_eq_some_iff] at h
    obtain ⟨m, hm, h⟩ := h
    obtain ⟨full, hfull, h⟩ := Option.bind_eq_some_iff.mp h
    have hseparator : s.offset + (separator i).flatten.length ≤ bufSize.toNat := by
      rcases hroom with ⟨rfl, hle⟩ | hlt
      · exact hle
      · have hlen := separator_length i
        omega
    have hinside : m.Inside bufSize := (appendAll_concat_inside_iff hm).mpr ⟨hs, hseparator⟩
    split at h
    · obtain ⟨rfl, rfl⟩ := Prod.mk.inj (Option.some.inj h)
      exact ⟨hinside, by simp⟩
    · rename_i hnot
      obtain rfl : full = false := by simpa using hnot
      exact ih hrest h hinside (.inr (offset_lt_of_not_full hfull))

end

/-! ## The function -/

/-- From the end of the loop to the return. -/
def finish (r : EventHandlerRegistry H X) (bufSize : UInt64) : Bool × Chain → Int × Chain
  | (true, s) => (-1, s)
  | (false, s) => (r.entries.count, s.print bufSize (closing r))

theorem handlerList_eq {bufSize : UInt64} (hpos : 0 < bufSize.toNat)
    (r : EventHandlerRegistry H X) :
    ∃ o : Chain, o.Renders bufSize opening ∧ o.Inside bufSize ∧
      handlerList r bufSize = (loop bufSize 0 r.entries.live o).map (finish r bufSize) := by
  have hzero : bufSize ≠ 0 := by
    rintro rfl
    contradiction
  obtain ⟨o, ho⟩ : ∃ o, Chain.start.append bufSize opening = some o :=
    ⟨_, append_eq_some.mpr ⟨by decide, rfl⟩⟩
  have hrenders := (start_renders bufSize).append hpos ho
  have hinside : o.Inside bufSize :=
    (append_inside_iff ho).mpr ⟨by simp [Chain.Inside, Chain.start], Nat.zero_le _⟩
  refine ⟨o, hrenders, hinside, ?_⟩
  unfold handlerList
  rw [if_neg hzero, ho]
  simp only [Option.bind_eq_bind, Option.bind_some, Option.map_eq_bind, Option.pure_def]
  congr 1
  funext x
  obtain ⟨overflow, t⟩ := x
  cases overflow <;> rfl

theorem live_length_le (r : EventHandlerRegistry H X) : r.entries.live.length ≤ 64 := by
  rw [SlotTable.live_length]
  exact r.entries.count_le

theorem bounded_iff {r : EventHandlerRegistry H X} (hends : ∀ e ∈ r.entries.live, Ends e)
    {bufSize : UInt64} (hpos : 0 < bufSize.toNat) :
    Bounded r bufSize ↔ 14 ≤ bufSize.toNat ∧
      (r.entries.live = [] ∨ intOf bufSize ≠ -2147483648) := by
  obtain ⟨o, hrenders, hinside, heq⟩ := handlerList_eq hpos r
  have hoffset : o.offset = 14 := hrenders.offset.trans opening_length
  have hcount := live_length_le r
  unfold Bounded
  rw [heq]
  constructor
  · rintro ⟨ret, s, hs, hall⟩
    obtain ⟨⟨overflow, t⟩, hloop, h⟩ := Option.map_eq_some_iff.mp hs
    have hdefined : r.entries.live = [] ∨ intOf bufSize ≠ -2147483648 := by
      by_contra hboth
      obtain ⟨hne, hint⟩ := not_or.mp hboth
      rw [loop_undefined (not_not.mp hint) hne hends] at hloop
      contradiction
    have ht : t.Inside bufSize ∧ (overflow = false → t.offset ≤ bufSize.toNat) := by
      cases overflow with
      | true =>
        obtain ⟨-, rfl⟩ := Prod.mk.inj h
        exact ⟨hall, by simp⟩
      | false =>
        obtain ⟨-, rfl⟩ := Prod.mk.inj h
        obtain ⟨ht, hlast⟩ := (inside_print_iff _ _ _).mp hall
        exact ⟨ht, fun _ => hlast⟩
    refine ⟨?_, hdefined⟩
    rw [← hoffset]
    by_cases hlive : r.entries.live = []
    · rw [hlive] at hloop
      obtain ⟨rfl, rfl⟩ := Prod.mk.inj (Option.some.inj hloop)
      exact ht.2 rfl
    · exact (inside_of_loop hends hloop ht.1).2 hlive
  · rintro ⟨hsize, hdefined⟩
    obtain ⟨overflow, t, hloop, -, -⟩ := loop_result hpos hends hdefined (i := 0) hrenders
      (by unfold intMax; omega)
    obtain ⟨ht, hlast⟩ := loop_inside hends hloop hinside (.inl ⟨rfl, by omega⟩)
    rw [hloop]
    cases overflow with
    | true => exact ⟨_, _, rfl, ht⟩
    | false => exact ⟨_, _, rfl, (inside_print_iff _ _ _).mpr ⟨ht, hlast rfl⟩⟩

theorem reachable_ends {T : Type} [DecidableEq T] [Zero H] [DecidableEq H] [Zero X]
    {s : Interleaving.State T H X} (h : Runs.Reachable Interleaving.step Interleaving.init s) :
    ∀ e ∈ s.registry.entries.live, Ends e :=
  fun _ he => NameReads.names_end (Interleaving.reachable_shortNames h) he

theorem list_bounded_iff {T : Type} [DecidableEq T] [Zero H] [DecidableEq H] [Zero X]
    {s : Interleaving.State T H X} (h : Runs.Reachable Interleaving.step Interleaving.init s)
    {bufSize : UInt64} (hpos : 1 ≤ bufSize.toNat) :
    Bounded s.registry bufSize ↔
      14 ≤ bufSize.toNat ∧ (s.registry.entries.live = [] ∨ intOf bufSize ≠ -2147483648) :=
  bounded_iff (reachable_ends h) hpos

/-- A module that has registered two commands. -/
def twoRegistered : Interleaving.State Unit Nat Nat :=
  (Runs.exec Interleaving.step Interleaving.init
    [.register (some (.lit "sender")) 0 7 1, .register (some (.lit "sender")) 1 8 1]).getD
    Interleaving.init

theorem twoRegistered_reachable :
    Runs.Reachable Interleaving.step (Interleaving.init : Interleaving.State Unit Nat Nat)
      twoRegistered :=
  ⟨[.register (some (.lit "sender")) 0 7 1, .register (some (.lit "sender")) 1 8 1], rfl⟩

theorem two_listed_bounded :
    twoRegistered.registry.entries.live.length = 2 ∧ Bounded twoRegistered.registry 64 :=
  ⟨rfl, (list_bounded_iff twoRegistered_reachable (by decide)).mpr ⟨by decide, .inr (by decide)⟩⟩

/-- The closing text of the empty list goes behind a buffer of one byte. -/
theorem one_byte_overrun :
    let r := (Interleaving.init : Interleaving.State Unit Nat Nat).registry
    ¬ Bounded r 1 ∧ (handlerList r 1).any fun x =>
      x.1 == 0 && x.2.calls.any fun c => c.offset == 14 && c.written == closing r ++ [0] := by
  intro r
  constructor
  · intro h
    have hsize := ((bounded_iff (reachable_ends ⟨[], rfl⟩) (by decide)).mp h).1
    contradiction
  · decide +kernel

end StudyC.Mgmt.Listing
