import StudyC.Lib.Text.JsonInversion
import StudyC.Mgmt.Listing

/-!
# The document of `handler_list`

The list is complete JSON if the buffer takes all of it and no name has a byte that JSON has to
escape. The text behind the last entry may be cut without a word.
-/

open CString Decimal Appends Json

namespace StudyC.Mgmt.Listing

variable {H X : Type}

def entryValue (e : EventHandlerEntry H X) : Value :=
  .obj [(ascii "module", .str (name e)),
    (ascii "command", .str (mgmtCommandStr e.cmdType)),
    (ascii "invocations", natural e.invocationCount.toNat),
    (ascii "avg_latency_us", natural e.avgLatency.toNat)]

/-- What the document should say. -/
def listing (r : EventHandlerRegistry H X) : Value :=
  .obj [(ascii "handlers", .arr (r.entries.live.map entryValue)),
    (ascii "total_dispatches", natural r.totalDispatches.toNat),
    (ascii "total_failures", natural r.totalFailures.toNat)]

/-- The function returns a negative value, or the number of the entries with their document in the
buffer. -/
def Documents (r : EventHandlerRegistry H X) (bufSize : UInt64) : Prop :=
  ∃ ret s, handlerList r bufSize = some (ret, s) ∧
    (ret < 0 ∨ ret = r.entries.live.length ∧ ∀ mem, ∃ t : CStr, Reads (s.memory mem) t ∧
      t.bytes.length < bufSize.toNat ∧ parse t.bytes = some (listing r))

def NameOk (e : EventHandlerEntry H X) : Prop := Plain (name e) ∧ utf8 (name e)

instance (e : EventHandlerEntry H X) : Decidable (NameOk e) :=
  inferInstanceAs (Decidable ((∀ b ∈ name e, 32 ≤ b.toNat ∧ b ≠ 34 ∧ b ≠ 92) ∧ utf8 (name e)))

/-- The whole text. -/
def document (r : EventHandlerRegistry H X) : List UInt8 :=
  opening ++ commas (r.entries.live.map text) ++ closing r

/-! ## One entry -/

theorem text_eq (e : EventHandlerEntry H X) : text e = braces [
    key (ascii "module") ++ quoted (name e),
    key (ascii "command") ++ quoted (mgmtCommandStr e.cmdType),
    key (ascii "invocations") ++ digits e.invocationCount.toNat,
    key (ascii "avg_latency_us") ++ digits e.avgLatency.toNat] := by
  have hcomma : ascii "," = [44] := rfl
  have hopen : ascii "\x7b" = [123] := rfl
  have hclose : ascii "\x7d" = [125] := rfl
  unfold text entryWith braces
  simp only [List.append_assoc, commas_cons, commas_singleton, hcomma, hopen, hclose,
    List.cons_append, List.nil_append]

theorem mgmtCommandStr_word (c : UInt8) : Word (mgmtCommandStr c) := by
  unfold mgmtCommandStr
  split <;> decide

theorem parses_text {e : EventHandlerEntry H X} (h : NameOk e) (fuel : Nat) :
    Parses (value (fuel + 2)) (text e) (entryValue e) := by
  have hcommand := mgmtCommandStr_word e.cmdType
  rw [text_eq]
  apply parses_obj
  refine .cons ?_ (.cons ?_ (.cons ?_ (.cons ?_ .nil)))
  · exact Word.member (by decide) (parses_quoted h.1 h.2 fuel)
  · exact Word.member (by decide) (parses_quoted hcommand.plain hcommand.utf8 fuel)
  · exact Word.member (by decide) (parses_natural fuel _)
  · exact Word.member (by decide) (parses_natural fuel _)

theorem nameOk_of_value {e : EventHandlerEntry H X} {fuel : Nat} {r r' : List UInt8}
    (h : value fuel (text e ++ r) = some (entryValue e, r')) : NameOk e ∧ 2 ≤ fuel := by
  rw [text_eq] at h
  obtain ⟨depth, tail, r₁, rfl, hvalue⟩ := value_of_braces (by decide) h
  have hdepth := fuel_pos_of_value hvalue
  rw [quoted, List.append_assoc, List.cons_append, List.singleton_append] at hvalue
  obtain ⟨hplain, hutf8, -⟩ := plain_of_string (string_of_value hvalue)
  exact ⟨⟨hplain, hutf8⟩, by omega⟩

/-! ## The whole -/

theorem document_eq (r : EventHandlerRegistry H X) : document r = braces [
    key (ascii "handlers") ++ 32 :: brackets (r.entries.live.map text),
    32 :: (key (ascii "total_dispatches") ++ 32 :: digits r.totalDispatches.toNat),
    32 :: (key (ascii "total_failures") ++ 32 :: digits r.totalFailures.toNat)] := by
  have hopen : ascii "\x7b" = [123] := rfl
  have hlist : ascii " [" = [32, 91] := rfl
  have hend : ascii "], " = [93, 44, 32] := rfl
  have hspace : ascii " " = [32] := rfl
  have hcomma : ascii ", " = [44, 32] := rfl
  have hclose : ascii "\x7d" = [125] := rfl
  unfold document opening closing braces brackets
  simp only [List.append_assoc, commas_cons, commas_singleton, hopen, hlist, hend, hspace,
    hcomma, hclose, List.cons_append, List.nil_append]

theorem parses_document {r : EventHandlerRegistry H X} (h : ∀ e ∈ r.entries.live, NameOk e)
    (fuel : Nat) : Parses (value (fuel + 4)) (document r) (listing r) := by
  have hentries : List.Forall₂ (Parses (value (fuel + 2))) (r.entries.live.map text)
      (r.entries.live.map entryValue) := by
    rw [List.forall₂_map_left_iff, List.forall₂_map_right_iff, List.forall₂_same]
    exact fun e he => parses_text (h e he) fuel
  rw [document_eq]
  apply parses_obj
  refine .cons ?_ (.cons ?_ (.cons ?_ .nil))
  · exact Word.member (by decide) (parses_value_space (parses_arr hentries))
  · exact parses_member_space
      (Word.member (by decide) (parses_value_space (parses_natural (fuel + 2) _)))
  · exact parses_member_space
      (Word.member (by decide) (parses_value_space (parses_natural (fuel + 2) _)))

theorem namesOk_of_value {r : EventHandlerRegistry H X} {fuel : Nat} {rest : List UInt8}
    (h : value fuel (document r) = some (listing r, rest)) : ∀ e ∈ r.entries.live, NameOk e := by
  have hread : ∀ {depth : Nat} {e : EventHandlerEntry H X}, NameOk e ∧ 2 ≤ depth →
      Parses (value depth) (text e) (entryValue e) := by
    rintro depth e ⟨hok, hdepth⟩
    obtain ⟨fuel, rfl⟩ := Nat.exists_eq_add_of_le' hdepth
    exact parses_text hok fuel
  rw [document_eq, ← List.append_nil (braces _)] at h
  obtain ⟨depth, tail, r₁, -, hvalue⟩ := value_of_braces (by decide) h
  rw [List.cons_append, value_space] at hvalue
  obtain ⟨depth, hall⟩ := good_of_brackets nameOk_of_value hread hvalue
  exact fun e he => (hall e he).1

theorem parse_take_iff (r : EventHandlerRegistry H X) (k : Nat) :
    parse ((document r).take k) = some (listing r) ↔
      (document r).length ≤ k ∧ ∀ e ∈ r.entries.live, NameOk e := by
  obtain ⟨fuel, hfuel⟩ : ∃ fuel, (document r).length + 1 = fuel + 4 := by
    apply Nat.exists_eq_add_of_le'
    simp only [document, List.length_append, opening_length]
    omega
  constructor
  · intro h
    obtain ⟨rest, hvalue, hshort⟩ := parse_take_obj h
    have hnames := namesOk_of_value hvalue
    have hwhole := parses_document hnames fuel [] (by simp [Closed])
    rw [List.append_nil, ← hfuel, hvalue] at hwhole
    exact ⟨hshort (Prod.mk.inj (Option.some.inj hwhole)).2, hnames⟩
  · rintro ⟨hle, hnames⟩
    rw [List.take_of_length_le hle]
    apply parse_of_parses
    rw [hfuel]
    exact parses_document hnames fuel

theorem joined_eq (es : List (EventHandlerEntry H X)) : joined 0 es = commas (es.map text) := by
  have hnext : ∀ (es : List (EventHandlerEntry H X)) (e : EventHandlerEntry H X) (i : Nat),
      text e ++ joined (i + 1) es = commas ((e :: es).map text) := by
    intro es
    induction es with
    | nil => exact fun e i => by simp [joined, commas_singleton]
    | cons next es ih =>
      intro e i
      have hcomma : (separator (i + 1)).flatten = [44] := rfl
      rw [joined, hcomma, List.append_assoc, ih next (i + 1)]
      simp [commas_cons]
  cases es with
  | nil => rfl
  | cons e es => exact hnext es e 0

theorem document_nonul (r : EventHandlerRegistry H X) : ∀ b ∈ document r, b ≠ 0 := by
  have hdigits : ∀ n, 0 ∉ digits n := fun n => nonul_iff.mp (digits_nonul n)
  have hentry : ∀ e : EventHandlerEntry H X, 0 ∉ text e := by
    intro e
    have hname : 0 ∉ name e := nonul_iff.mp (cstr_nonul _)
    have hcommand : 0 ∉ mgmtCommandStr e.cmdType :=
      fun h => absurd (mgmtCommandStr_word e.cmdType 0 h).1 (by decide)
    unfold text entryWith quoted
    simp only [List.mem_append, List.mem_cons, hname, hcommand, hdigits, or_false, not_or]
    and_intros <;> decide
  have hentries : 0 ∉ commas (r.entries.live.map text) :=
    not_mem_commas (by decide) (List.forall_mem_map.mpr fun e _ => hentry e)
  rw [nonul_iff]
  unfold document opening closing
  simp only [List.mem_append, hentries, hdigits, or_false, not_or]
  and_intros <;> decide

/-! ## The result -/

theorem finish_documents {r : EventHandlerRegistry H X} {bufSize : UInt64}
    (hpos : 0 < bufSize.toNat) {t : Chain}
    (h : t.Renders bufSize (opening ++ commas (r.entries.live.map text))) :
    (∀ mem, ∃ c : CStr, Reads ((t.print bufSize (closing r)).memory mem) c ∧
      c.bytes.length < bufSize.toNat ∧
      parse c.bytes = some (listing r)) ↔
      (document r).length < bufSize.toNat ∧ ∀ e ∈ r.entries.live, NameOk e := by
  have hshows : (t.print bufSize (closing r)).Shows bufSize (document r) :=
    print_shows hpos h.offset h.shows _
  have hreads := hshows.reads_iff (document_nonul r)
  rw [show (document r).length < bufSize.toNat ↔ (document r).length ≤ bufSize.toNat - 1 by omega,
    ← parse_take_iff]
  constructor
  · intro hall
    obtain ⟨c, hc, -, hparse⟩ := hall fun _ => 0
    rwa [(hreads _ c).mp hc] at hparse
  · intro hparse mem
    let c : CStr := ⟨(document r).take (bufSize.toNat - 1),
        fun b hb => document_nonul r b (List.mem_of_mem_take hb)⟩
    have hlen : c.bytes.length ≤ bufSize.toNat - 1 := List.length_take_le _ _
    exact ⟨c, (hreads mem c).mpr rfl, by omega, hparse⟩

/-- When the function keeps its word: it finds out that the buffer is too small, or the buffer has
room for the whole document and no name needs an escape. -/
theorem documents_iff {r : EventHandlerRegistry H X} (hends : ∀ e ∈ r.entries.live, Ends e)
    (bufSize : UInt64) :
    Documents r bufSize ↔ bufSize = 0 ∨ (r.entries.live = [] ∨ intOf bufSize ≠ -2147483648) ∧
      (r.entries.live ≠ [] ∧ intOf bufSize - 1 ≤
        (opening ++ commas (r.entries.live.map text)).length ∨
        (document r).length < bufSize.toNat ∧ ∀ e ∈ r.entries.live, NameOk e) := by
  by_cases hzero : bufSize = 0
  · have hret : handlerList r bufSize = some (-1, .start) := if_pos hzero
    exact iff_of_true ⟨-1, .start, hret, .inl (by decide)⟩ (.inl hzero)
  have hpos : 0 < bufSize.toNat := Nat.pos_of_ne_zero fun h => hzero (UInt64.toNat_inj.mp h)
  obtain ⟨o, hrenders, -, heq⟩ := handlerList_eq hpos r
  unfold Documents
  rw [heq, or_iff_right hzero]
  by_cases hdefined : r.entries.live = [] ∨ intOf bufSize ≠ -2147483648
  · have hlength : r.entries.live.length = r.entries.count := SlotTable.live_length _
    have hcount := live_length_le r
    have hoffset := hrenders.offset.trans opening_length
    obtain ⟨overflow, t, hloop, hoverflow, hall⟩ :=
      loop_result hpos hends hdefined (i := 0) hrenders
      (by unfold intMax; omega)
    rw [joined_eq] at hoverflow hall
    rw [hloop, Option.map_some, ← hoverflow, and_iff_right hdefined]
    cases overflow with
    | true => exact iff_of_true ⟨_, _, rfl, .inl (by decide)⟩ (.inl rfl)
    | false =>
      rw [or_iff_right (by decide), ← finish_documents hpos (hall rfl)]
      constructor
      · rintro ⟨ret, s, hs, hret⟩
        obtain ⟨rfl, rfl⟩ := Prod.mk.inj (Option.some.inj hs)
        rcases hret with hneg | ⟨-, hdocument⟩
        · omega
        · exact hdocument
      · intro hdocument
        exact ⟨_, _, rfl, .inr ⟨by rw [hlength], hdocument⟩⟩
  · obtain ⟨hne, hint⟩ := not_or.mp hdefined
    rw [loop_undefined (not_not.mp hint) hne hends]
    simp [hdefined]

theorem list_documents_iff {T : Type} [DecidableEq T] [Zero H] [DecidableEq H] [Zero X]
    {s : Interleaving.State T H X} (h : Runs.Reachable Interleaving.step Interleaving.init s)
    (bufSize : UInt64) :
    Documents s.registry bufSize ↔
      bufSize = 0 ∨ (s.registry.entries.live = [] ∨ intOf bufSize ≠ -2147483648) ∧
        (s.registry.entries.live ≠ [] ∧
            intOf bufSize - 1 ≤ (opening ++ commas (s.registry.entries.live.map text)).length ∨
          (document s.registry).length < bufSize.toNat ∧ ∀ e ∈ s.registry.entries.live, NameOk e) :=
  documents_iff (reachable_ends h) bufSize

theorem two_listed_documents :
    twoRegistered.registry.entries.live.length = 2 ∧ Documents twoRegistered.registry 512 :=
  ⟨rfl, (list_documents_iff twoRegistered_reachable 512).mpr
    (.inr ⟨.inr (by decide), .inr ⟨by decide +kernel, by decide +kernel⟩⟩)⟩

/-- A buffer of 32 bytes has the empty list without its end, and a name with a quote ends its own
string. -/
theorem closing_cut_and_name_unescaped :
    let r := (Interleaving.init : Interleaving.State Unit Nat Nat).registry
    let named := (handlerRegister r (some (.lit "a\"b")) 1 7 0).2
    Runs.exec Interleaving.step (Interleaving.init : Interleaving.State Unit Nat Nat)
      [.register (some (.lit "a\"b")) 1 7 0] = some ⟨named, fun _ => .idle⟩ ∧
    (¬ Documents r 32 ∧ (handlerList r 32).any fun x => x.1 == 0 &&
      (List.range 32).map (x.2.memory fun _ => 0) == ascii
        "\x7b\"handlers\": [], \"total_dispatc" ++ [0]) ∧
    ¬ Documents named 256 ∧ (handlerList named 256).any fun x => x.1 == 1 &&
      (List.range 29).map (x.2.memory fun _ => 0) == ascii
        "\x7b\"handlers\": [\x7b\"module\":\"a\"b\"" := by
  intro r named
  have hrun : Runs.exec Interleaving.step (Interleaving.init : Interleaving.State Unit Nat Nat)
      [.register (some (.lit "a\"b")) 1 7 0] = some ⟨named, fun _ => .idle⟩ := rfl
  refine ⟨hrun, ⟨?_, by decide +kernel⟩, ?_, by decide +kernel⟩
  · intro h
    have hsize : (document r).length < 32 := by
      have hcases := ((documents_iff (reachable_ends ⟨[], rfl⟩) 32).mp h).resolve_left (by decide)
      exact (hcases.2.resolve_left fun hne => hne.1 rfl).1
    exact absurd hsize (by decide +kernel)
  · intro h
    have hcases := ((documents_iff (reachable_ends ⟨_, hrun⟩) 256).mp h).resolve_left (by decide)
    have hnames := (hcases.2.resolve_left (by decide +kernel)).2
    have hquote : named.entries.live.any fun e => (name e).contains 34 := by decide +kernel
    obtain ⟨e, he, hmem⟩ := List.any_eq_true.mp hquote
    exact ((hnames e he).1 34 (by simpa using hmem)).2.1 rfl

end StudyC.Mgmt.Listing
