import Mathlib.Algebra.GroupWithZero.Nat
import Mathlib.Data.List.DropRight
import StudyC.Lib.CString
import StudyC.Lib.Runs

/-!
# Metrics

`metrics_collector.c`: the counters of the three modules behind one handle. The fields that no
function reads or writes are left out. The laws are about any sequence of calls after
`metrics_init`, in terms of the calls made since the last reset. `none` is the division by zero of
`latency_record`.
-/

open CString Runs

namespace StudyC.Metrics

structure LatencyStats where
  minUs : UInt64
  maxUs : UInt64
  avgUs : UInt64
  p99Us : UInt64
  sampleCount : UInt32
  deriving DecidableEq

structure MetricsCollector where
  eventsProcessed : UInt64
  shmWritesOk : UInt64
  shmWritesFailed : UInt64
  mqSendsFailed : UInt64
  bufferUtilPct : UInt32
  latency : LatencyStats
  deriving DecidableEq

structure MetricsRouter where
  shmReadsTotal : UInt64
  shmReadsFailed : UInt64
  tcpForwardsTotal : UInt64
  tcpBytesSent : UInt64
  activeTcpConns : UInt32
  bufferUtilPct : UInt32
  latency : LatencyStats
  deriving DecidableEq

structure MetricsViewer where
  tcpBytesReceived : UInt64
  messagesProcessed : UInt64
  activeClients : UInt32
  outputBufferUtilPct : UInt32
  latency : LatencyStats
  deriving DecidableEq

structure MetricsSnapshot where
  timestamp : Int64
  snapshotId : UInt32
  collector : MetricsCollector
  router : MetricsRouter
  viewer : MetricsViewer
  totalEvents : UInt64
  totalErrors : UInt64
  uptimeSeconds : UInt32
  deriving DecidableEq

structure MetricsCollectorState where
  snapshot : MetricsSnapshot
  startupTime : Int64
  nextSnapshotId : UInt32
  deriving DecidableEq

def LatencyStats.zero : LatencyStats := ⟨0, 0, 0, 0, 0⟩

/-- The structure after `memset`. -/
def MetricsSnapshot.zero : MetricsSnapshot where
  timestamp := 0
  snapshotId := 0
  collector := ⟨0, 0, 0, 0, 0, .zero⟩
  router := ⟨0, 0, 0, 0, 0, 0, .zero⟩
  viewer := ⟨0, 0, 0, 0, .zero⟩
  totalEvents := 0
  totalErrors := 0
  uptimeSeconds := 0

def latencyRecord (stats : LatencyStats) (latencyUs : UInt64) : Option LatencyStats :=
  -- The divisor is the sum of 32 bits, widened for the division.
  if stats.sampleCount + 1 = 0 then none
  else some { stats with
    minUs := if stats.sampleCount = 0 then latencyUs
      else if latencyUs < stats.minUs then latencyUs else stats.minUs
    maxUs := if stats.sampleCount = 0 then latencyUs
      else if latencyUs > stats.maxUs then latencyUs else stats.maxUs
    avgUs :=
      (stats.avgUs * stats.sampleCount.toUInt64 + latencyUs) / (stats.sampleCount + 1).toUInt64
    sampleCount := stats.sampleCount + 1 }

theorem latencyRecord_eq {stats t : LatencyStats} {latencyUs : UInt64}
    (h : latencyRecord stats latencyUs = some t) :
    t = { stats with
      minUs := if stats.sampleCount = 0 then latencyUs
        else if latencyUs < stats.minUs then latencyUs else stats.minUs
      maxUs := if stats.sampleCount = 0 then latencyUs
        else if latencyUs > stats.maxUs then latencyUs else stats.maxUs
      avgUs :=
        (stats.avgUs * stats.sampleCount.toUInt64 + latencyUs) / (stats.sampleCount + 1).toUInt64
      sampleCount := stats.sampleCount + 1 } := by
  unfold latencyRecord at h
  split at h
  · simp at h
  · exact (Option.some.inj h).symm

theorem latencyRecord_sampleCount {stats t : LatencyStats} {latencyUs : UInt64}
    (h : latencyRecord stats latencyUs = some t) : t.sampleCount = stats.sampleCount + 1 := by
  rw [latencyRecord_eq h]

theorem latencyRecord_total {stats : LatencyStats} (h : stats.sampleCount + 1 ≠ 0)
    (latencyUs : UInt64) : ∃ t, latencyRecord stats latencyUs = some t := by
  unfold latencyRecord
  rw [if_neg h]
  exact ⟨_, rfl⟩

def metricsInit (now : Int64) : MetricsCollectorState where
  snapshot := { MetricsSnapshot.zero with timestamp := now }
  startupTime := now
  nextSnapshotId := 0

def metricsSnapshot (mc : MetricsCollectorState) (now : Int64) :
    MetricsSnapshot × MetricsCollectorState :=
  let snap := { mc.snapshot with
    timestamp := now
    snapshotId := mc.nextSnapshotId
    uptimeSeconds := (now - mc.startupTime).toUInt64.toUInt32
    totalEvents := mc.snapshot.collector.eventsProcessed + mc.snapshot.router.shmReadsTotal +
      mc.snapshot.viewer.messagesProcessed
    totalErrors := mc.snapshot.collector.shmWritesFailed + mc.snapshot.collector.mqSendsFailed +
      mc.snapshot.router.shmReadsFailed }
  (snap, { mc with nextSnapshotId := mc.nextSnapshotId + 1 })

def metricsUpdateCollector (mc : MetricsCollectorState) (latencyUs : UInt64) (success : Bool) :
    Option MetricsCollectorState := do
  let c :=
    { mc.snapshot.collector with eventsProcessed := mc.snapshot.collector.eventsProcessed + 1 }
  if success then
    let latency ← latencyRecord c.latency latencyUs
    return { mc with snapshot.collector := { c with shmWritesOk := c.shmWritesOk + 1, latency } }
  else
    return { mc with snapshot.collector := { c with shmWritesFailed := c.shmWritesFailed + 1 } }

def metricsUpdateRouter (mc : MetricsCollectorState) (shmSuccess : Bool)
    (tcpBytes latencyUs : UInt64) : Option MetricsCollectorState := do
  let r := { mc.snapshot.router with shmReadsTotal := mc.snapshot.router.shmReadsTotal + 1 }
  if shmSuccess then
    let latency ← latencyRecord r.latency latencyUs
    return { mc with snapshot.router := { r with
      tcpForwardsTotal := r.tcpForwardsTotal + 1, tcpBytesSent := r.tcpBytesSent + tcpBytes,
      latency } }
  else
    return { mc with snapshot.router := { r with shmReadsFailed := r.shmReadsFailed + 1 } }

def metricsUpdateViewer (mc : MetricsCollectorState) (bytesRcvd latencyUs : UInt64) :
    Option MetricsCollectorState := do
  let v := mc.snapshot.viewer
  let latency ← latencyRecord v.latency latencyUs
  return { mc with snapshot.viewer := { v with
    messagesProcessed := v.messagesProcessed + 1,
    tcpBytesReceived := v.tcpBytesReceived + bytesRcvd, latency } }

def metricsSetBufferUtil (mc : MetricsCollectorState) (module : Option CStr) (utilPct : UInt32) :
    Int × MetricsCollectorState :=
  match module with
  | none => (-1, mc)
  | some m =>
    if m.bytes = ascii "collector" then (0, { mc with snapshot.collector.bufferUtilPct := utilPct })
    else if m.bytes = ascii "router" then (0, { mc with snapshot.router.bufferUtilPct := utilPct })
    else if m.bytes = ascii "viewer" then
      (0, { mc with snapshot.viewer.outputBufferUtilPct := utilPct })
    else (-1, mc)

def metricsSetActiveConnections (mc : MetricsCollectorState) (module : Option CStr)
    (count : UInt32) : Int × MetricsCollectorState :=
  match module with
  | none => (-1, mc)
  | some m =>
    if m.bytes = ascii "router" then (0, { mc with snapshot.router.activeTcpConns := count })
    else if m.bytes = ascii "viewer" then (0, { mc with snapshot.viewer.activeClients := count })
    else (-1, mc)

def metricsReset (mc : MetricsCollectorState) (now : Int64) : MetricsCollectorState :=
  { mc with snapshot := { MetricsSnapshot.zero with timestamp := now } }

/-! ## Runs -/

inductive Call where
  | updateCollector (latencyUs : UInt64) (success : Bool)
  | updateRouter (shmSuccess : Bool) (tcpBytes latencyUs : UInt64)
  | updateViewer (bytesRcvd latencyUs : UInt64)
  | setBufferUtil (module : Option CStr) (utilPct : UInt32)
  | setActiveConnections (module : Option CStr) (count : UInt32)
  | snapshot (now : Int64)
  | reset (now : Int64)

def step (mc : MetricsCollectorState) : Call → Option MetricsCollectorState
  | .updateCollector latencyUs success => metricsUpdateCollector mc latencyUs success
  | .updateRouter shmSuccess tcpBytes latencyUs =>
    metricsUpdateRouter mc shmSuccess tcpBytes latencyUs
  | .updateViewer bytesRcvd latencyUs => metricsUpdateViewer mc bytesRcvd latencyUs
  | .setBufferUtil module utilPct => some (metricsSetBufferUtil mc module utilPct).2
  | .setActiveConnections module count => some (metricsSetActiveConnections mc module count).2
  | .snapshot now => some (metricsSnapshot mc now).2
  | .reset now => some (metricsReset mc now)

@[simp]
def Call.isCollector (ok : Bool) : Call → Bool
  | .updateCollector _ success => success == ok
  | _ => false

@[simp]
def Call.isRouter (ok : Bool) : Call → Bool
  | .updateRouter shmSuccess _ _ => shmSuccess == ok
  | _ => false

@[simp]
def Call.isViewer : Call → Bool
  | .updateViewer .. => true
  | _ => false

@[simp]
def Call.isUpdate : Call → Bool
  | .updateCollector .. | .updateRouter .. | .updateViewer .. => true
  | _ => false

/-- An update call that reports a failure. `metrics_update_viewer` cannot. -/
@[simp]
def Call.isFailure : Call → Bool
  | .updateCollector _ success => !success
  | .updateRouter shmSuccess _ _ => !shmSuccess
  | _ => false

@[simp]
def Call.isReset : Call → Bool
  | .reset _ => true
  | _ => false

def sinceReset (cs : List Call) : List Call := cs.rtakeWhile (!·.isReset)

theorem sinceReset_concat (cs : List Call) (c : Call) :
    sinceReset (cs ++ [c]) = if c.isReset then [] else sinceReset cs ++ [c] := by
  unfold sinceReset
  rw [List.rtakeWhile_concat]
  cases c.isReset <;> rfl

theorem countP_sinceReset_le (p : Call → Bool) (cs : List Call) :
    (sinceReset cs).countP p ≤ cs.countP p :=
  (List.rtakeWhile_suffix _ cs).sublist.countP_le

theorem countP_isUpdate (cs : List Call) : cs.countP Call.isUpdate =
    cs.countP (Call.isCollector true) + cs.countP (Call.isCollector false) +
      (cs.countP (Call.isRouter true) + cs.countP (Call.isRouter false)) + cs.countP
        Call.isViewer := by
  induction cs with
  | nil => rfl
  | cons c cs ih =>
    simp only [List.countP_cons, ih]
    rcases c with ⟨_, _ | _⟩ | ⟨_ | _, _, _⟩ | _ | _ | _ | _ | _ <;>
      simp <;> omega

theorem countP_isFailure (cs : List Call) : cs.countP Call.isFailure =
    cs.countP (Call.isCollector false) + cs.countP (Call.isRouter false) := by
  induction cs with
  | nil => rfl
  | cons c cs ih =>
    simp only [List.countP_cons, ih]
    rcases c with ⟨_, _ | _⟩ | ⟨_ | _, _, _⟩ | _ | _ | _ | _ | _ <;>
      simp <;> omega

/-- Every counter is the number of calls of its kind among `cs`, up to its width. -/
structure Counts (cs : List Call) (s : MetricsSnapshot) : Prop where
  events : s.collector.eventsProcessed =
    .ofNat (cs.countP (Call.isCollector true)) + .ofNat (cs.countP (Call.isCollector false))
  writesOk : s.collector.shmWritesOk = .ofNat (cs.countP (Call.isCollector true))
  writesFailed : s.collector.shmWritesFailed = .ofNat (cs.countP (Call.isCollector false))
  sendsFailed : s.collector.mqSendsFailed = 0
  collectorSamples : s.collector.latency.sampleCount = .ofNat (cs.countP (Call.isCollector true))
  reads : s.router.shmReadsTotal =
    .ofNat (cs.countP (Call.isRouter true)) + .ofNat (cs.countP (Call.isRouter false))
  readsFailed : s.router.shmReadsFailed = .ofNat (cs.countP (Call.isRouter false))
  forwards : s.router.tcpForwardsTotal = .ofNat (cs.countP (Call.isRouter true))
  routerSamples : s.router.latency.sampleCount = .ofNat (cs.countP (Call.isRouter true))
  messages : s.viewer.messagesProcessed = .ofNat (cs.countP Call.isViewer)
  viewerSamples : s.viewer.latency.sampleCount = .ofNat (cs.countP Call.isViewer)

theorem counts_zero (now : Int64) : Counts [] { MetricsSnapshot.zero with timestamp := now } := by
  constructor <;> rfl

section
variable {cs : List Call} {mc mc' : MetricsCollectorState}

theorem updateCollector_counts {latencyUs : UInt64} {success : Bool} (h : Counts cs mc.snapshot)
    (hs : metricsUpdateCollector mc latencyUs success = some mc') :
    Counts (cs ++ [.updateCollector latencyUs success]) mc'.snapshot := by
  obtain ⟨⟩ := h
  cases success
  · obtain rfl := Option.some.inj hs
    constructor <;> simp [*, UInt64.add_assoc]
  · obtain ⟨t, ht, hs⟩ := Option.bind_eq_some_iff.mp hs
    obtain rfl := Option.some.inj hs
    constructor <;> simp [*, latencyRecord_sampleCount ht]
    ac_rfl

theorem updateRouter_counts {shmSuccess : Bool} {tcpBytes latencyUs : UInt64}
    (h : Counts cs mc.snapshot)
    (hs : metricsUpdateRouter mc shmSuccess tcpBytes latencyUs = some mc') :
    Counts (cs ++ [.updateRouter shmSuccess tcpBytes latencyUs]) mc'.snapshot := by
  obtain ⟨⟩ := h
  cases shmSuccess
  · obtain rfl := Option.some.inj hs
    constructor <;> simp [*, UInt64.add_assoc]
  · obtain ⟨t, ht, hs⟩ := Option.bind_eq_some_iff.mp hs
    obtain rfl := Option.some.inj hs
    constructor <;> simp [*, latencyRecord_sampleCount ht]
    ac_rfl

theorem updateViewer_counts {bytesRcvd latencyUs : UInt64} (h : Counts cs mc.snapshot)
    (hs : metricsUpdateViewer mc bytesRcvd latencyUs = some mc') :
    Counts (cs ++ [.updateViewer bytesRcvd latencyUs]) mc'.snapshot := by
  obtain ⟨⟩ := h
  obtain ⟨t, ht, hs⟩ := Option.bind_eq_some_iff.mp hs
  obtain rfl := Option.some.inj hs
  constructor <;> simp [*, latencyRecord_sampleCount ht]

theorem setBufferUtil_counts (h : Counts cs mc.snapshot) (module : Option CStr) (utilPct : UInt32) :
    Counts cs (metricsSetBufferUtil mc module utilPct).2.snapshot := by
  unfold metricsSetBufferUtil
  repeat' split
  all_goals exact { h with }

theorem setActiveConnections_counts (h : Counts cs mc.snapshot) (module : Option CStr)
    (count : UInt32) : Counts cs (metricsSetActiveConnections mc module count).2.snapshot := by
  unfold metricsSetActiveConnections
  repeat' split
  all_goals exact { h with }

end

theorem Counts.idle {cs : List Call} {s : MetricsSnapshot} (h : Counts cs s) {c : Call}
    (hc : c.isUpdate = false) : Counts (cs ++ [c]) s := by
  obtain ⟨⟩ := h
  cases c <;> simp at hc
  all_goals constructor <;> simp [*]

theorem step_counts {cs : List Call} {mc mc' : MetricsCollectorState} {c : Call}
    (h : Counts cs mc.snapshot) (hs : step mc c = some mc') :
    Counts (if c.isReset then [] else cs ++ [c]) mc'.snapshot := by
  cases c with
  | updateCollector latencyUs success => exact updateCollector_counts h hs
  | updateRouter shmSuccess tcpBytes latencyUs => exact updateRouter_counts h hs
  | updateViewer bytesRcvd latencyUs => exact updateViewer_counts h hs
  | setBufferUtil module utilPct =>
    obtain rfl := Option.some.inj hs
    exact (setBufferUtil_counts h module utilPct).idle rfl
  | setActiveConnections module count =>
    obtain rfl := Option.some.inj hs
    exact (setActiveConnections_counts h module count).idle rfl
  | snapshot now =>
    obtain rfl := Option.some.inj hs
    exact h.idle rfl
  | reset now =>
    obtain rfl := Option.some.inj hs
    exact counts_zero now

theorem next_sample_ne_zero {count : UInt32} {n : Nat} (hcount : count = .ofNat n)
    (hn : n < 2 ^ 32 - 1) : count + 1 ≠ 0 := by
  intro h
  have htoNat := congrArg UInt32.toNat h
  simp only [hcount, UInt32.toNat_add, UInt32.toNat_ofNat', UInt32.reduceToNat] at htoNat
  omega

theorem step_total {cs : List Call} {mc : MetricsCollectorState} (h : Counts cs mc.snapshot)
    (hfew : cs.countP Call.isUpdate < 2 ^ 32 - 1) (c : Call) : ∃ mc', step mc c = some mc' := by
  rw [countP_isUpdate] at hfew
  cases c with
  | updateCollector latencyUs success =>
    cases success
    · exact ⟨_, rfl⟩
    · obtain ⟨t, ht⟩ :=
        latencyRecord_total (next_sample_ne_zero h.collectorSamples (by omega)) latencyUs
      exact ⟨_, Option.bind_eq_some_iff.mpr ⟨t, ht, rfl⟩⟩
  | updateRouter shmSuccess tcpBytes latencyUs =>
    cases shmSuccess
    · exact ⟨_, rfl⟩
    · obtain ⟨t, ht⟩ :=
        latencyRecord_total (next_sample_ne_zero h.routerSamples (by omega)) latencyUs
      exact ⟨_, Option.bind_eq_some_iff.mpr ⟨t, ht, rfl⟩⟩
  | updateViewer bytesRcvd latencyUs =>
    obtain ⟨t, ht⟩ := latencyRecord_total (next_sample_ne_zero h.viewerSamples (by omega)) latencyUs
    exact ⟨_, Option.bind_eq_some_iff.mpr ⟨t, ht, rfl⟩⟩
  | setBufferUtil | setActiveConnections | snapshot | reset => exact ⟨_, rfl⟩

theorem run_counts (start : Int64) (cs : List Call) (hfew : cs.countP Call.isUpdate < 2 ^ 32 - 1) :
    ∃ mc, exec step (metricsInit start) cs = some mc ∧ Counts (sinceReset cs) mc.snapshot := by
  induction cs using List.reverseRecOn with
  | nil => exact ⟨_, rfl, counts_zero start⟩
  | append_singleton cs c ih =>
    rw [List.countP_append] at hfew
    obtain ⟨mc, hrun, hcounts⟩ := ih (by omega)
    have hsince := countP_sinceReset_le Call.isUpdate cs
    obtain ⟨mc', hs⟩ := step_total hcounts (by omega) c
    refine ⟨mc', by simp [exec_append, hrun, exec, hs], ?_⟩
    rw [sinceReset_concat]
    exact step_counts hcounts hs

/-- What the counters of a module have to do with each other. -/
structure Conserved (s : MetricsSnapshot) : Prop where
  events : s.collector.eventsProcessed.toNat =
    s.collector.shmWritesOk.toNat + s.collector.shmWritesFailed.toNat
  writes : s.collector.shmWritesOk.toNat = s.collector.latency.sampleCount.toNat
  reads : s.router.shmReadsTotal.toNat =
    s.router.tcpForwardsTotal.toNat + s.router.shmReadsFailed.toNat
  forwards : s.router.tcpForwardsTotal.toNat = s.router.latency.sampleCount.toNat
  messages : s.viewer.messagesProcessed.toNat = s.viewer.latency.sampleCount.toNat

theorem Counts.conserved {cs : List Call} {s : MetricsSnapshot} (h : Counts cs s)
    (hfew : cs.countP Call.isUpdate < 2 ^ 32 - 1) : Conserved s := by
  rw [countP_isUpdate] at hfew
  constructor
  · simp only [h.events, h.writesOk, h.writesFailed, UInt64.toNat_add, UInt64.toNat_ofNat']
    omega
  · simp only [h.writesOk, h.collectorSamples, UInt64.toNat_ofNat', UInt32.toNat_ofNat']
    omega
  · simp only [h.reads, h.forwards, h.readsFailed, UInt64.toNat_add, UInt64.toNat_ofNat']
    omega
  · simp only [h.forwards, h.routerSamples, UInt64.toNat_ofNat', UInt32.toNat_ofNat']
    omega
  · simp only [h.messages, h.viewerSamples, UInt64.toNat_ofNat', UInt32.toNat_ofNat']
    omega

theorem Counts.totals {cs : List Call} {mc : MetricsCollectorState} (h : Counts cs mc.snapshot)
    (hfew : cs.countP Call.isUpdate < 2 ^ 32 - 1) (now : Int64) :
    (metricsSnapshot mc now).1.totalEvents.toNat = cs.countP Call.isUpdate ∧
      (metricsSnapshot mc now).1.totalErrors.toNat = cs.countP Call.isFailure := by
  rw [countP_isUpdate] at hfew ⊢
  rw [countP_isFailure]
  constructor
  · simp only [metricsSnapshot, h.events, h.reads, h.messages, UInt64.toNat_add,
      UInt64.toNat_ofNat']
    omega
  · simp only [metricsSnapshot, h.writesFailed, h.sendsFailed, h.readsFailed, UInt64.toNat_add,
      UInt64.toNat_ofNat', UInt64.toNat_zero]
    omega

theorem metrics_conserved (start : Int64) (cs : List Call)
    (hfew : cs.countP Call.isUpdate < 2 ^ 32 - 1) :
    ∃ mc, exec step (metricsInit start) cs = some mc ∧ Conserved mc.snapshot ∧
      ∀ now, (metricsSnapshot mc now).1.totalEvents.toNat = (sinceReset cs).countP Call.isUpdate ∧
        (metricsSnapshot mc now).1.totalErrors.toNat = (sinceReset cs).countP Call.isFailure := by
  obtain ⟨mc, hrun, hcounts⟩ := run_counts start cs hfew
  have hsince := (countP_sinceReset_le Call.isUpdate cs).trans_lt hfew
  exact ⟨mc, hrun, hcounts.conserved hsince, hcounts.totals hsince⟩

/-- A run with failures on both sides of a reset, a snapshot and a setter without a module. -/
def mixedRun : List Call :=
  [.updateRouter false 0 7, .updateCollector 5 true, .reset 10, .updateCollector 9 false,
    .snapshot 11, .setBufferUtil none 80, .updateRouter true 64 3, .updateViewer 64 4]

theorem mixedRun_conserved :
    ∃ mc, exec step (metricsInit 0) mixedRun = some mc ∧ Conserved mc.snapshot ∧
    ∀ now, (metricsSnapshot mc now).1.totalEvents.toNat = 3 ∧
      (metricsSnapshot mc now).1.totalErrors.toNat = 1 :=
  metrics_conserved 0 mixedRun (by decide)

end StudyC.Metrics
