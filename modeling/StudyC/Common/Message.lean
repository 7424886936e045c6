import StudyC.Common.Logger
import StudyC.Lib.Appends
import StudyC.Lib.Decimal

/-!
# The message buffer of the logger

`ulog_output` puts a message together with up to six calls, each at the sum of the lengths of the
texts before it. Nothing compares the sum with the size of the buffer.
-/

open CString Appends

namespace StudyC.Common.Message

/-- `MAX_LOG_MESSAGE_LEN`. -/
def maxLogMessageLen : UInt64 := 2048

/-- What the prefix of a message is made of. -/
structure Parts where
  flags : UInt32
  now : CStr
  level : CStr
  self : CStr
  tag : CStr
  file : Option CStr
  line : Int
  func : Option CStr

def appendIf (enabled : Bool) (s : Chain) (text : List UInt8) : Option Chain :=
  if enabled then s.append maxLogMessageLen text else some s

/-- The calls of `ulog_output` on its buffer, nothing if the offset leaves the range of `int`. -/
def format (m : Parts) (text : CStr) : Option Chain := do
  let s ← appendIf (m.flags &&& 0x04 ≠ 0) .start (bracketed m.now.bytes)
  let s ← s.append maxLogMessageLen (bracketed m.level.bytes)
  let s ← appendIf (m.flags &&& 0x02 ≠ 0) s (bracketed (ascii "TID:" ++ m.self.bytes))
  let s ← appendIf (m.tag.bytes ≠ []) s (bracketed m.tag.bytes)
  let s ← match location m.file m.line m.func with
    | some text => s.append maxLogMessageLen text
    | none => some s
  return s.print maxLogMessageLen text.bytes

/-- The parts that are enabled, in their order. -/
def Parts.texts (m : Parts) : List (List UInt8) :=
  (if m.flags &&& 0x04 ≠ 0 then [bracketed m.now.bytes] else []) ++
    [bracketed m.level.bytes] ++
    (if m.flags &&& 0x02 ≠ 0 then [bracketed (ascii "TID:" ++ m.self.bytes)] else []) ++
    (if m.tag.bytes ≠ [] then [bracketed m.tag.bytes] else []) ++
    (location m.file m.line m.func).toList

/-- The calls stay in the buffer, and the string in it is as much of the prefix and the message as
it can hold. -/
def Fits (m : Parts) (text : CStr) : Prop :=
  ∃ s, format m text = some s ∧ s.Inside maxLogMessageLen ∧
    ∀ mem t, Reads (s.memory mem) t ↔ t.bytes = (m.texts.flatten ++ text.bytes).take 2047

/-! ## The calls -/

theorem appendIf_eq (enabled : Bool) (s : Chain) (text : List UInt8) :
    appendIf enabled s text = s.appendAll maxLogMessageLen (if enabled then [text] else []) := by
  unfold appendIf
  cases enabled
  · rfl
  · exact (appendAll_singleton _ _ _).symm

theorem format_eq (m : Parts) (text : CStr) :
    format m text = (Chain.start.appendAll maxLogMessageLen m.texts).map
      (·.print maxLogMessageLen text.bytes) := by
  unfold format Parts.texts
  simp only [appendIf_eq, appendAll_append, appendAll_singleton, Option.bind_eq_bind,
    Option.bind_assoc, Option.map_eq_bind, decide_eq_true_eq]
  cases location m.file m.line m.func with
  | none => rfl
  | some place => simp only [Option.toList_some, appendAll_singleton]; rfl

/-! ## Texts -/

theorem bracketed_nonul {text : List UInt8} (h : ∀ b ∈ text, b ≠ 0) :
    ∀ b ∈ bracketed text, b ≠ 0 := by
  intro b hb
  unfold bracketed at hb
  rw [List.mem_append, List.mem_append] at hb
  rcases hb with (hb | hb) | hb
  · exact (CStr.lit "[").nonul b hb
  · exact h b hb
  · exact (CStr.lit "] ").nonul b hb

theorem location_nonul {file func : Option CStr} {line : Int} {text : List UInt8}
    (h : location file line func = some text) : ∀ b ∈ text, b ≠ 0 := by
  unfold location at h
  split at h
  · rename_i file func
    obtain rfl := Option.some.inj h
    apply bracketed_nonul
    intro b hb
    simp only [List.mem_append] at hb
    rcases hb with (((hb | hb) | hb) | hb) | hb
    · exact file.nonul b hb
    · exact (CStr.lit ":").nonul b hb
    · exact Decimal.signed_nonul line b hb
    · exact (CStr.lit ":").nonul b hb
    · exact func.nonul b hb
  · simp at h

theorem texts_nonul (m : Parts) : ∀ b ∈ m.texts.flatten, b ≠ 0 := by
  have htid : ∀ b ∈ ascii "TID:" ++ m.self.bytes, b ≠ 0 := by
    intro b hb
    rcases List.mem_append.mp hb with hb | hb
    · exact (CStr.lit "TID:").nonul b hb
    · exact m.self.nonul b hb
  intro b hb
  obtain ⟨text, htext, hb⟩ := List.mem_flatten.mp hb
  unfold Parts.texts at htext
  simp only [List.mem_append, List.mem_ite_nil_right, List.mem_singleton, Option.mem_toList]
    at htext
  rcases htext with (((⟨-, rfl⟩ | rfl) | ⟨-, rfl⟩) | ⟨-, rfl⟩) | hplace
  · exact bracketed_nonul m.now.nonul b hb
  · exact bracketed_nonul m.level.nonul b hb
  · exact bracketed_nonul htid b hb
  · exact bracketed_nonul m.tag.nonul b hb
  · exact location_nonul hplace b hb

theorem prefix_le_of_fits {m : Parts} {text : CStr} (h : Fits m text) :
    m.texts.flatten.length ≤ 2048 := by
  obtain ⟨s, hs, hinside, -⟩ := h
  rw [format_eq] at hs
  obtain ⟨t, ht, rfl⟩ := Option.map_eq_some_iff.mp hs
  have hoffset := ((inside_print_iff _ _ _).mp hinside).2
  rw [appendAll_offset ht] at hoffset
  simpa [Chain.start, maxLogMessageLen] using hoffset

theorem fits_of_prefix_le {m : Parts} (hlen : m.texts.flatten.length ≤ 2048) (text : CStr) :
    Fits m text := by
  obtain ⟨t, ht⟩ : ∃ t, Chain.start.appendAll maxLogMessageLen m.texts = some t :=
    appendAll_isSome (by simp only [Chain.start, intMax]; omega)
  have hrenders := (start_renders maxLogMessageLen).appendAll (by decide) ht
  have hoffset : t.offset ≤ maxLogMessageLen.toNat := by
    rw [hrenders.offset, List.nil_append]
    exact hlen
  unfold Fits
  rw [format_eq, ht]
  refine ⟨_, rfl, (inside_print_iff _ _ _).mpr ⟨?_, hoffset⟩, ?_⟩
  · exact appendAll_inside (by simp [Chain.Inside, Chain.start]) ht hoffset
  · have hshows := print_shows (by decide) hrenders.offset hrenders.shows text.bytes
    apply hshows.reads_iff
    intro b hb
    rw [List.nil_append, List.mem_append] at hb
    rcases hb with hb | hb
    · exact texts_nonul m b hb
    · exact text.nonul b hb

/-- The buffer is enough exactly if the prefix is not longer than it, whatever the length of the
message. -/
theorem fits_iff (m : Parts) (text : CStr) : Fits m text ↔ m.texts.flatten.length ≤ 2048 :=
  ⟨prefix_le_of_fits, fun hlen => fits_of_prefix_le hlen text⟩

/-! ## The parts of a logger -/

theorem ulogLevelStr_nonul (level : UlogLevel) : ∀ b ∈ ulogLevelStr level, b ≠ 0 := by
  rw [nonul_iff]
  cases level <;> decide

def partsOf (c : UlogContext) (env : Env) (level : UlogLevel) (file : Option CStr) (line : Int)
    (func : Option CStr) : Parts where
  flags := c.flags
  now := env.now
  level := ⟨ulogLevelStr level, ulogLevelStr_nonul level⟩
  self := ⟨ascii (toString env.self), Decimal.digits_nonul env.self.toNat⟩
  tag := ⟨cstr c.contextTag.toList, cstr_nonul _⟩
  file := file
  line := line
  func := func

theorem pieces_eq (c : UlogContext) (env : Env) (level : UlogLevel) (file : Option CStr)
    (line : Int) (func : Option CStr) (text : CStr) :
    pieces c env level file line func text = (partsOf c env level file line func).texts ++
      [text.bytes] := by
  have htag : cstr c.contextTag.toList ≠ [] ↔ c.contextTag[0] ≠ 0 := by
    rw [Ne, cstr_eq_nil_iff, ← List.head?_eq_none_iff]
    simp [List.head?_eq_getElem?]
  unfold pieces Parts.texts partsOf
  rw [if_congr htag rfl rfl]

theorem bracketed_length (text : List UInt8) : (bracketed text).length = text.length + 3 := by
  have hparts : (ascii "[").length = 1 ∧ (ascii "] ").length = 2 := by decide
  rw [bracketed, List.length_append, List.length_append, hparts.1, hparts.2]
  omega

theorem texts_length_le {m : Parts} (h : location m.file m.line m.func = none) :
    m.texts.flatten.length ≤
      m.now.bytes.length + m.level.bytes.length + m.self.bytes.length + m.tag.bytes.length
        + 16 := by
  have htid : (ascii "TID:" ++ m.self.bytes).length = m.self.bytes.length + 4 := by
    rw [List.length_append, Nat.add_comm]
    rfl
  have hone : ∀ (enabled : Prop) [Decidable enabled] (text : List UInt8),
      (if enabled then [bracketed text] else []).flatten.length ≤ text.length + 3 := by
    intro enabled _ text
    split
    · rw [List.flatten_singleton, bracketed_length]
    · exact Nat.zero_le _
  have hnow := hone (m.flags &&& 0x04 ≠ 0) m.now.bytes
  have hself := hone (m.flags &&& 0x02 ≠ 0) (ascii "TID:" ++ m.self.bytes)
  have htag := hone (m.tag.bytes ≠ []) m.tag.bytes
  unfold Parts.texts
  simp only [List.flatten_append, List.length_append, h, List.flatten_singleton, bracketed_length,
    Option.toList_none, List.flatten_nil, List.length_nil]
  omega

theorem fits_without_location (c : UlogContext) {env : Env} (hnow : env.now.bytes.length < 32)
    (level : UlogLevel) (line : Int) (text : CStr) :
    Fits (partsOf c env level none line none) text := by
  -- only a location can make the prefix too long
  apply fits_of_prefix_le
  have hlevel : (ulogLevelStr level).length ≤ 5 := by cases level <;> decide
  have hself : (ascii (toString env.self)).length ≤ 20 :=
    Decimal.digits_length_le (by decide) (Nat.lt_trans env.self.toNat_lt (by decide))
  have htag : (cstr c.contextTag.toList).length ≤ 32 := by
    simpa using cstr_length_le c.contextTag.toList
  calc (partsOf c env level none line none).texts.flatten.length
      ≤ env.now.bytes.length + (ulogLevelStr level).length + (ascii (toString env.self)).length +
          (cstr c.contextTag.toList).length + 16 := texts_length_le rfl
    _ ≤ 2048 := by omega

/-- A path of 2048 letters, and the message is stored behind the buffer. -/
theorem long_path_leaves_buffer :
    let c : UlogContext := ⟨.replicate _ 0, .info, 0, true, false, false, 0, 0, .replicate _ 0⟩
    let m := partsOf c ⟨.lit "", 1, true, true⟩ .info (some (.letters 2048)) 1 (some (.lit "f"))
    ¬ Fits m (.lit "hello") ∧
      (format m (.lit "hello")).any fun s =>
        s.calls.any fun call => 2048 < call.offset && call.written == ascii "hello" ++ [0] := by
  intro c m
  constructor
  · intro h
    have hlen := prefix_le_of_fits h
    revert hlen
    decide +kernel
  · decide +kernel

end StudyC.Common.Message
