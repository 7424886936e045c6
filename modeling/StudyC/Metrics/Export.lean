import StudyC.Metrics.Collector
import StudyC.Lib.Appends
import StudyC.Lib.Text.Json

/-!
# The JSON text of a snapshot

`metrics_snapshot_to_json` appends nineteen texts and gives up after the first one that does not
fit.
-/

open CString Decimal Appends Json

namespace StudyC.Metrics.Export

/-- The formatted text of each `APPEND`. -/
def texts (snap : MetricsSnapshot) : List (List UInt8) :=
  [ ascii "\x7b" ++ key (ascii "timestamp") ++ signed snap.timestamp.toInt ++
      ascii "," ++ key (ascii "snapshot_id") ++ digits snap.snapshotId.toNat ++
      ascii "," ++ key (ascii "uptime_seconds") ++ digits snap.uptimeSeconds.toNat ++ ascii ",",
    key (ascii "collector") ++ ascii "\x7b",
    key (ascii "events_processed") ++ digits snap.collector.eventsProcessed.toNat ++ ascii ",",
    key (ascii "buffer_util_pct") ++ digits snap.collector.bufferUtilPct.toNat ++ ascii ",",
    key (ascii "latency_avg_us") ++ digits snap.collector.latency.avgUs.toNat ++ ascii ",",
    key (ascii "latency_p99_us") ++ digits snap.collector.latency.p99Us.toNat,
    ascii "\x7d,",
    key (ascii "router") ++ ascii "\x7b",
    key (ascii "shm_reads_total") ++ digits snap.router.shmReadsTotal.toNat ++ ascii ",",
    key (ascii "tcp_forwards_total") ++ digits snap.router.tcpForwardsTotal.toNat ++ ascii ",",
    key (ascii "active_tcp_conns") ++ digits snap.router.activeTcpConns.toNat,
    ascii "\x7d,",
    key (ascii "viewer") ++ ascii "\x7b",
    key (ascii "messages_processed") ++ digits snap.viewer.messagesProcessed.toNat ++ ascii ",",
    key (ascii "tcp_bytes_received") ++ digits snap.viewer.tcpBytesReceived.toNat ++ ascii ",",
    key (ascii "active_clients") ++ digits snap.viewer.activeClients.toNat,
    ascii "\x7d,",
    key (ascii "total_events") ++ digits snap.totalEvents.toNat ++ ascii ",",
    key (ascii "total_errors") ++ digits snap.totalErrors.toNat ++ ascii "\x7d" ]

/-- The `APPEND`s, from the state of the calls before them. -/
def append (bufSize : UInt64) : List (List UInt8) → Chain → Option (Int × Chain)
  | [], s => some (s.offset, s)
  | text :: rest, s => do
    let s ← s.append bufSize text
    if ← s.full bufSize then return (-1, s)
    append bufSize rest s

/-- For a snapshot and a buffer that are not `NULL`. The result has the calls on the buffer, and
nothing if an `int` overflows. -/
def metricsSnapshotToJson (snap : MetricsSnapshot) (bufSize : UInt64) : Option (Int × Chain) :=
  if bufSize = 0 then some (-1, .start) else append bufSize (texts snap) .start

def rendering (snap : MetricsSnapshot) : List UInt8 := (texts snap).flatten

/-- The exported fields. -/
def exported (snap : MetricsSnapshot) : Value :=
  .obj [
    (ascii "timestamp", .num snap.timestamp.toInt 0),
    (ascii "snapshot_id", natural snap.snapshotId.toNat),
    (ascii "uptime_seconds", natural snap.uptimeSeconds.toNat),
    (ascii "collector", .obj [
      (ascii "events_processed", natural snap.collector.eventsProcessed.toNat),
      (ascii "buffer_util_pct", natural snap.collector.bufferUtilPct.toNat),
      (ascii "latency_avg_us", natural snap.collector.latency.avgUs.toNat),
      (ascii "latency_p99_us", natural snap.collector.latency.p99Us.toNat)]),
    (ascii "router", .obj [
      (ascii "shm_reads_total", natural snap.router.shmReadsTotal.toNat),
      (ascii "tcp_forwards_total", natural snap.router.tcpForwardsTotal.toNat),
      (ascii "active_tcp_conns", natural snap.router.activeTcpConns.toNat)]),
    (ascii "viewer", .obj [
      (ascii "messages_processed", natural snap.viewer.messagesProcessed.toNat),
      (ascii "tcp_bytes_received", natural snap.viewer.tcpBytesReceived.toNat),
      (ascii "active_clients", natural snap.viewer.activeClients.toNat)]),
    (ascii "total_events", natural snap.totalEvents.toNat),
    (ascii "total_errors", natural snap.totalErrors.toNat)]

/-! ## The text -/

theorem rendering_eq (snap : MetricsSnapshot) : rendering snap = braces [
    key (ascii "timestamp") ++ (signed snap.timestamp.toInt),
    key (ascii "snapshot_id") ++ (digits snap.snapshotId.toNat),
    key (ascii "uptime_seconds") ++ (digits snap.uptimeSeconds.toNat),
    key (ascii "collector") ++ (braces [
      key (ascii "events_processed") ++ (digits snap.collector.eventsProcessed.toNat),
      key (ascii "buffer_util_pct") ++ (digits snap.collector.bufferUtilPct.toNat),
      key (ascii "latency_avg_us") ++ (digits snap.collector.latency.avgUs.toNat),
      key (ascii "latency_p99_us") ++ (digits snap.collector.latency.p99Us.toNat)]),
    key (ascii "router") ++ (braces [
      key (ascii "shm_reads_total") ++ (digits snap.router.shmReadsTotal.toNat),
      key (ascii "tcp_forwards_total") ++ (digits snap.router.tcpForwardsTotal.toNat),
      key (ascii "active_tcp_conns") ++ (digits snap.router.activeTcpConns.toNat)]),
    key (ascii "viewer") ++ (braces [
      key (ascii "messages_processed") ++ (digits snap.viewer.messagesProcessed.toNat),
      key (ascii "tcp_bytes_received") ++ (digits snap.viewer.tcpBytesReceived.toNat),
      key (ascii "active_clients") ++ (digits snap.viewer.activeClients.toNat)]),
    key (ascii "total_events") ++ (digits snap.totalEvents.toNat),
    key (ascii "total_errors") ++ (digits snap.totalErrors.toNat)] := by
  have hcomma : ascii "," = [44] := rfl
  have hopen : ascii "\x7b" = [123] := rfl
  have hclose : ascii "\x7d" = [125] := rfl
  have hnext : ascii "\x7d," = [125, 44] := rfl
  unfold rendering texts braces
  simp only [List.flatten_cons, List.flatten_nil, List.append_assoc, commas_cons, commas_singleton,
    hcomma, hopen, hclose, hnext, List.cons_append, List.append_nil, List.nil_append]

theorem parses_rendering (snap : MetricsSnapshot) (fuel : Nat) :
    Parses (value (fuel + 3)) (rendering snap) (exported snap) := by
  rw [rendering_eq]
  apply parses_obj
  refine .cons ?_ (.cons ?_ (.cons ?_ (.cons ?_ (.cons ?_ (.cons ?_ (.cons ?_ (.cons ?_ .nil)))))))
  · exact Word.member (by decide) (parses_signed (fuel + 1) _)
  · exact Word.member (by decide) (parses_natural (fuel + 1) _)
  · exact Word.member (by decide) (parses_natural (fuel + 1) _)
  · apply Word.member (by decide)
    apply parses_obj
    refine .cons ?_ (.cons ?_ (.cons ?_ (.cons ?_ .nil)))
    all_goals exact Word.member (by decide) (parses_natural fuel _)
  · apply Word.member (by decide)
    apply parses_obj
    refine .cons ?_ (.cons ?_ (.cons ?_ .nil))
    all_goals exact Word.member (by decide) (parses_natural fuel _)
  · apply Word.member (by decide)
    apply parses_obj
    refine .cons ?_ (.cons ?_ (.cons ?_ .nil))
    all_goals exact Word.member (by decide) (parses_natural fuel _)
  · exact Word.member (by decide) (parses_natural (fuel + 1) _)
  · exact Word.member (by decide) (parses_natural (fuel + 1) _)

theorem digits_length_64 (n : UInt64) : (digits n.toNat).length ≤ 20 :=
  digits_length_le (by decide) (Nat.lt_trans n.toNat_lt (by decide))

theorem digits_length_32 (n : UInt32) : (digits n.toNat).length ≤ 20 :=
  digits_length_le (by decide) (Nat.lt_trans n.toNat_lt (by decide))

theorem first_text_length (snap : MetricsSnapshot) :
    (ascii "\x7b" ++ key (ascii "timestamp") ++ signed snap.timestamp.toInt ++
      ascii "," ++ key (ascii "snapshot_id") ++ digits snap.snapshotId.toNat ++
      ascii "," ++ key (ascii "uptime_seconds") ++ digits snap.uptimeSeconds.toNat ++
        ascii ",").length ≤ 200 := by
  have htime : (signed snap.timestamp.toInt).length ≤ 20 := by
    apply signed_length_le (by decide)
    have hlow := snap.timestamp.le_toInt
    have hhigh := snap.timestamp.toInt_lt
    omega
  have hid := digits_length_32 snap.snapshotId
  have huptime := digits_length_32 snap.uptimeSeconds
  have hwords :
      (ascii "\x7b" ++ key (ascii "timestamp") ++ ascii "," ++ key (ascii "snapshot_id") ++
      ascii "," ++
      key (ascii "uptime_seconds") ++ ascii ",").length = 47 := by decide
  simp only [List.length_append] at hwords ⊢
  omega

theorem texts_length (snap : MetricsSnapshot) : ∀ text ∈ texts snap, text.length ≤ 200 := by
  have hfield : ∀ {name number tail : List UInt8}, name.length + tail.length ≤ 20 →
      number.length ≤ 20 →
      (key name ++ number ++ tail).length ≤ 200 := by
    intro name number tail hname hnumber
    rw [List.length_append, List.length_append, key_length]
    omega
  have hlast : ∀ {name number : List UInt8}, name.length ≤ 20 → number.length ≤ 20 →
      (key name ++ number).length ≤ 200 := by
    intro name number hname hnumber
    rw [List.length_append, key_length]
    omega
  unfold texts
  simp only [List.forall_mem_cons]
  refine ⟨first_text_length snap, by decide, ?_, ?_, ?_, ?_, by decide, by decide, ?_, ?_,
    ?_, by decide, by decide, ?_, ?_, ?_, by decide, ?_, ?_, List.forall_mem_nil _⟩
  · exact hfield (by decide) (digits_length_64 _)
  · exact hfield (by decide) (digits_length_32 _)
  · exact hfield (by decide) (digits_length_64 _)
  · exact hlast (by decide) (digits_length_64 _)
  · exact hfield (by decide) (digits_length_64 _)
  · exact hfield (by decide) (digits_length_64 _)
  · exact hlast (by decide) (digits_length_32 _)
  · exact hfield (by decide) (digits_length_64 _)
  · exact hfield (by decide) (digits_length_64 _)
  · exact hlast (by decide) (digits_length_32 _)
  · exact hfield (by decide) (digits_length_64 _)
  · exact hfield (by decide) (digits_length_64 _)

/-! ## The calls -/

/-- The texts that were appended: all of them, or those up to one that leaves no room. -/
structure Appended (bufSize : UInt64) (before : List UInt8) (texts : List (List UInt8)) (ret : Int)
    (t : Chain) : Prop where
  inside : t.Inside bufSize
  result : ∃ done left, texts = done ++ left ∧ t.Renders bufSize (before ++ done.flatten) ∧
    (texts ≠ [] → done ≠ []) ∧
    (ret = -1 ∧ bufSize.toNat ≤ t.offset + 1 ∨ left = [] ∧ ret = t.offset ∧
      t.offset < bufSize.toNat)

theorem append_appended {bufSize : UInt64} (hpos : 0 < bufSize.toNat)
    (hint : bufSize.toNat ≤ intMax) {texts : List (List UInt8)} {s : Chain} {before : List UInt8}
    (hs : s.Renders bufSize before) (hinside : s.Inside bufSize) (hroom : s.offset < bufSize.toNat)
    (hlen : ∀ text ∈ texts, text.length ≤ 200) (htotal : s.offset + 200 * texts.length ≤ intMax) :
    ∃ ret t, append bufSize texts s = some (ret, t) ∧ Appended bufSize before texts ret t := by
  induction texts generalizing s before with
  | nil =>
    refine ⟨_, _, rfl, hinside, [], [], rfl, ?_, by simp, .inr ⟨rfl, rfl, hroom⟩⟩
    simpa using hs
  | cons text texts ih =>
    obtain ⟨htext, hrest⟩ := List.forall_mem_cons.mp hlen
    rw [List.length_cons] at htotal
    obtain ⟨t, ht⟩ : ∃ t, s.append bufSize text = some t := ⟨_, append_eq_some.mpr ⟨by omega, rfl⟩⟩
    have hoffset : t.offset = s.offset + text.length := by rw [(append_eq_some.mp ht).2]
    have hrenders := hs.append hpos ht
    have hinside' : t.Inside bufSize := (append_inside_iff ht).mpr ⟨hinside, hroom.le⟩
    by_cases hfull : bufSize.toNat ≤ t.offset + 1
    · have hrun : append bufSize (text :: texts) s = some (-1, t) := by
        simp [append, ht, full_of_le hint, hfull]
      refine ⟨-1, t, hrun, hinside', [text], texts, rfl, ?_, by simp, .inl ⟨rfl, hfull⟩⟩
      simpa using hrenders
    · have hrun : append bufSize (text :: texts) s = append bufSize texts t := by
        simp [append, ht, full_of_le hint, hfull]
      obtain ⟨ret, t', ht', hinside'', done, left, hsplit, hdone, -, hret⟩ :=
        ih hrenders hinside' (by omega) hrest (by omega)
      refine ⟨ret, t', hrun.trans ht', hinside'', text :: done, left, by rw [hsplit]; rfl,
        ?_, by simp, hret⟩
      rwa [List.flatten_cons, ← List.append_assoc]

theorem append_reads {bufSize : UInt64} (hpos : 0 < bufSize.toNat) (hmax : bufSize.toNat ≤ intMax)
    {texts : List (List UInt8)} (hfirst : ∃ first ∈ texts.head?, first ≠ [])
    (hnul : ∀ b ∈ texts.flatten, b ≠ 0) (hlen : ∀ text ∈ texts, text.length ≤ 200)
    (htotal : 200 * texts.length ≤ intMax) :
    ∃ ret s, append bufSize texts .start = some (ret, s) ∧ s.Inside bufSize ∧
      (texts.flatten.length + 1 < bufSize.toNat → 0 ≤ ret) ∧
      ∀ mem, ∃ t : CStr, Reads (s.memory mem) t ∧ t.bytes.length < bufSize.toNat ∧
        t.bytes <+: texts.flatten ∧
        (0 ≤ ret → ret = t.bytes.length ∧ t.bytes = texts.flatten) := by
  obtain ⟨ret, s, hs, hinside, done, left, rfl, hrenders, hdone, hret⟩ :=
    append_appended hpos hmax (start_renders bufSize)
      (by simp [Chain.Inside, Chain.start]) hpos hlen
      (by simpa [Chain.start] using htotal)
  rw [List.nil_append] at hrenders
  rw [List.flatten_append] at hnul ⊢
  have hshown : done.flatten ≠ [] := by
    obtain ⟨first, hmem, hfirst⟩ := hfirst
    obtain ⟨text, done, rfl⟩ :=
      List.exists_cons_of_ne_nil (hdone (by rintro hnil; simp [hnil] at hmem))
    obtain rfl : text = first := Option.some.inj hmem
    simp [hfirst]
  let t : CStr := ⟨done.flatten.take (bufSize.toNat - 1),
    fun b hb => hnul b (List.mem_append_left _ (List.mem_of_mem_take hb))⟩
  have htake : t.bytes.length ≤ bufSize.toNat - 1 := List.length_take_le _ _
  refine ⟨ret, s, hs, hinside, ?_, fun mem => ⟨t, hrenders.shows hshown mem, by omega, ?_, ?_⟩⟩
  · intro hroom
    rw [List.length_append, ← hrenders.offset] at hroom
    rcases hret with ⟨-, hfull⟩ | ⟨-, hoffset, -⟩ <;> omega
  · exact (List.take_prefix _ _).trans (List.prefix_append _ _)
  · intro hnonneg
    rcases hret with ⟨hneg, -⟩ | ⟨rfl, hoffset, hroom⟩
    · omega
    · have hall : t.bytes = done.flatten :=
        List.take_of_length_le (by rw [← hrenders.offset]; omega)
      rw [List.flatten_nil, List.append_nil, hall, hoffset, hrenders.offset]
      exact ⟨rfl, rfl⟩

/-! ## The export -/

theorem rendering_nonul (snap : MetricsSnapshot) : ∀ b ∈ rendering snap, b ≠ 0 := by
  have hdigits : ∀ n, 0 ∉ digits n := fun n => nonul_iff.mp (digits_nonul n)
  have hsigned : ∀ z, 0 ∉ signed z := fun z => nonul_iff.mp (signed_nonul z)
  rw [nonul_iff]
  unfold rendering texts
  simp only [List.flatten_cons, List.flatten_nil, List.mem_append, hdigits, hsigned,
    List.not_mem_nil, or_false, not_or]
  and_intros <;> decide

theorem parse_rendering (snap : MetricsSnapshot) :
    parse (rendering snap) = some (exported snap) := by
  apply parse_of_parses
  have hlen : 2 ≤ (rendering snap).length := by
    rw [rendering_eq, braces]
    simp
  obtain ⟨fuel, hfuel⟩ : ∃ fuel, (rendering snap).length + 1 = fuel + 3 :=
    ⟨(rendering snap).length - 2, by omega⟩
  rw [hfuel]
  exact parses_rendering snap fuel

theorem toJson_reads (snap : MetricsSnapshot) {bufSize : UInt64} (hpos : 0 < bufSize.toNat)
    (hmax : bufSize.toNat ≤ intMax) :
    ∃ ret s, metricsSnapshotToJson snap bufSize = some (ret, s) ∧ s.Inside bufSize ∧
      ((rendering snap).length + 1 < bufSize.toNat → 0 ≤ ret) ∧
      ∀ mem, ∃ t : CStr, Reads (s.memory mem) t ∧ t.bytes.length < bufSize.toNat ∧
        t.bytes <+: rendering snap ∧
        (0 ≤ ret → ret = t.bytes.length ∧ t.bytes = rendering snap) := by
  have hzero : bufSize ≠ 0 := by
    rintro rfl
    contradiction
  unfold metricsSnapshotToJson
  rw [if_neg hzero]
  exact append_reads hpos hmax ⟨_, rfl, by simp [key]⟩ (rendering_nonul snap) (texts_length snap)
    (by simp [texts, intMax])

theorem snapshot_to_json_exports (snap : MetricsSnapshot) {bufSize : UInt64}
    (hpos : 1 ≤ bufSize.toNat) (hmax : bufSize.toNat ≤ intMax) :
    ∃ ret s, metricsSnapshotToJson snap bufSize = some (ret, s) ∧ s.Inside bufSize ∧
      ∀ mem, ∃ t : CStr, Reads (s.memory mem) t ∧ t.bytes.length < bufSize.toNat ∧
        t.bytes <+: rendering snap ∧
        (0 ≤ ret → ret = t.bytes.length ∧ t.bytes = rendering snap ∧
          parse t.bytes = some (exported snap)) := by
  obtain ⟨ret, s, hs, hinside, -, hreads⟩ := toJson_reads snap hpos hmax
  refine ⟨ret, s, hs, hinside, ?_⟩
  intro mem
  obtain ⟨t, ht, hlen, hprefix, hall⟩ := hreads mem
  refine ⟨t, ht, hlen, hprefix, ?_⟩
  intro hret
  obtain ⟨hcount, hrendering⟩ := hall hret
  refine ⟨hcount, hrendering, ?_⟩
  rw [hrendering]
  exact parse_rendering snap

theorem zero_rendering_length : (rendering .zero).length = 328 := by decide +kernel

theorem zero_snapshot_exported :
    ∃ ret s, metricsSnapshotToJson .zero 1024 = some (ret, s) ∧ 0 ≤ ret ∧
      ∀ mem, ∃ t : CStr, Reads (s.memory mem) t ∧ parse t.bytes = some (exported .zero) := by
  obtain ⟨ret, s, hs, -, hreads⟩ :=
    snapshot_to_json_exports .zero (show 1 ≤ (1024 : UInt64).toNat by decide) (by decide)
  obtain ⟨ret', s', hs', -, hroom, -⟩ :=
    toJson_reads .zero (show 0 < (1024 : UInt64).toNat by decide) (by decide)
  obtain ⟨rfl, rfl⟩ := Prod.mk.inj (Option.some.inj (hs.symm.trans hs'))
  have hret : 0 ≤ ret := hroom (by rw [zero_rendering_length]; decide)
  refine ⟨ret, s, hs, hret, ?_⟩
  intro mem
  obtain ⟨t, ht, -, -, hall⟩ := hreads mem
  exact ⟨t, ht, (hall hret).2.2⟩

/-! ## The exact fit -/

theorem append_nonneg_iff {bufSize : UInt64} (hmax : bufSize.toNat ≤ intMax)
    {texts : List (List UInt8)} (hne : texts ≠ []) {s t : Chain} {ret : Int}
    (h : append bufSize texts s = some (ret, t)) :
    0 ≤ ret ↔ s.offset + texts.flatten.length + 1 < bufSize.toNat := by
  induction texts generalizing s with
  | nil => contradiction
  | cons text texts ih =>
    rw [append] at h
    obtain ⟨s', hs', h⟩ := Option.bind_eq_some_iff.mp h
    have hoffset : s'.offset = s.offset + text.length := by rw [(append_eq_some.mp hs').2]
    simp only [full_of_le hmax, Option.bind_eq_bind, Option.bind_some, decide_eq_true_eq] at h
    rw [List.flatten_cons, List.length_append]
    split at h
    · rename_i hfull
      obtain ⟨rfl, -⟩ := Prod.mk.inj (Option.some.inj h)
      exact iff_of_false (by decide) (by omega)
    · cases texts with
      | nil =>
        obtain ⟨rfl, -⟩ := Prod.mk.inj (Option.some.inj h)
        rw [List.flatten_nil, List.length_nil]
        omega
      | cons next texts =>
        rw [ih (by simp) h, hoffset]
        omega

def Succeeds (snap : MetricsSnapshot) (bufSize : UInt64) : Prop :=
  ∃ ret s, metricsSnapshotToJson snap bufSize = some (ret, s) ∧ 0 ≤ ret

theorem succeeds_iff (snap : MetricsSnapshot) {bufSize : UInt64} (hpos : 0 < bufSize.toNat)
    (hmax : bufSize.toNat ≤ intMax) :
    Succeeds snap bufSize ↔ (rendering snap).length + 1 < bufSize.toNat := by
  have hzero : bufSize ≠ 0 := by
    rintro rfl
    contradiction
  obtain ⟨ret, s, hs, -⟩ := toJson_reads snap hpos hmax
  have hrun : append bufSize (texts snap) .start = some (ret, s) := by
    rwa [metricsSnapshotToJson, if_neg hzero] at hs
  have hret := append_nonneg_iff hmax (by simp [texts]) hrun
  rw [Chain.start, Nat.zero_add] at hret
  rw [rendering, ← hret]
  constructor
  · rintro ⟨ret', s', hs', hnonneg⟩
    obtain ⟨rfl, rfl⟩ := Prod.mk.inj (Option.some.inj (hs.symm.trans hs'))
    exact hnonneg
  · exact fun hnonneg => ⟨ret, s, hs, hnonneg⟩

/-- The function tells whether the text and its NUL fit, but for a buffer that they fill. -/
theorem fit_reported_iff (snap : MetricsSnapshot) {bufSize : UInt64} (hpos : 1 ≤ bufSize.toNat)
    (hmax : bufSize.toNat ≤ intMax) :
    (Succeeds snap bufSize ↔ (rendering snap).length + 1 ≤ bufSize.toNat) ↔
      bufSize.toNat ≠ (rendering snap).length + 1 := by
  rw [succeeds_iff snap hpos hmax]
  omega

theorem wide_buffer_reported : Succeeds .zero 1024 ↔ (rendering .zero).length + 1 ≤ 1024 :=
  (fit_reported_iff .zero (show 1 ≤ (1024 : UInt64).toNat by decide) (by decide)).mpr
    (by rw [zero_rendering_length]; decide)

/-- The zero snapshot has a text of 328 bytes. In a buffer of 329 it is complete, and reported as an
overflow. -/
theorem exact_fit_refused :
    (rendering .zero).length + 1 = 329 ∧ ¬ Succeeds .zero 329 ∧
      (metricsSnapshotToJson .zero 329).any fun x =>
        x.1 == -1 && (List.range 329).map (x.2.memory fun _ => 0) == rendering .zero ++ [0] := by
  refine ⟨by rw [zero_rendering_length], ?_, by decide +kernel⟩
  rw [succeeds_iff .zero (by decide) (by decide), zero_rendering_length]
  decide

end StudyC.Metrics.Export
