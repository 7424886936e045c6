import StudyC.Mgmt.Handlers

/-!
# The latency that dispatch records

`handler_dispatch` stores the time of the request in the response before it calls the handler, and
reads it back when it accounts the latency. In between, every handler of the programs has rebuilt
the response with `mgmt_response_init`, and the time is zero.

* `dispatch_program`: what a dispatch to one of the programs' handlers records.
* `latency_recorded_iff`: a run records the latencies exactly if its requests carry the time zero.
-/

open CString KeyedList Runs

namespace StudyC.Mgmt

/-! ## Microseconds -/

/-- A time of a clock that is set: not before 1970, and not 270000 years later. -/
structure Timespec.Sane (t : Timespec) : Prop where
  sec : 0 ≤ t.tvSec.toInt ∧ t.tvSec.toInt < 2 ^ 43
  nsec : 0 ≤ t.tvNsec.toInt ∧ t.tvNsec.toInt < 1000000000

def Timespec.microseconds (t : Timespec) : Int := t.tvSec.toInt * 1000000 + t.tvNsec.toInt / 1000

theorem toNat_toUInt64 {x : Int64} (h : 0 ≤ x.toInt) : (x.toUInt64.toNat : Int) = x.toInt := by
  rw [Int64.toNat_toUInt64_of_le (Int64.le_iff_toInt_le.mpr h)]
  exact Int.toNat_of_nonneg h

theorem toUs_toNat {t : Timespec} (h : t.Sane) : (t.toUs.toNat : Int) = t.microseconds := by
  obtain ⟨⟨hsec, hsec'⟩, hnsec, hnsec'⟩ := h
  have hdiv : (t.tvNsec / 1000).toInt = t.tvNsec.toInt / 1000 := by
    rw [Int64.toInt_div, show (1000 : Int64).toInt = 1000 from rfl,
      Int.tdiv_eq_ediv_of_nonneg hnsec]
    exact Int.bmod_eq_of_le (by omega) (by omega)
  have hus := toNat_toUInt64 hsec
  have hns := toNat_toUInt64 (x := t.tvNsec / 1000) (by omega)
  rw [hdiv] at hns
  rw [Timespec.toUs, Timespec.microseconds, UInt64.toNat_add, UInt64.toNat_mul]
  simp only [UInt64.toNat_ofNat]
  omega

/-- From the request to the response, zero if the clock went back. -/
def latencyUs (req : MgmtCommandRequest) (resp : MgmtCommandResponse) : Nat :=
  (max 0 (resp.responseTimestamp.microseconds - req.timestamp.microseconds)).toNat

/-! ## One dispatch -/

namespace Latency

variable {X : Type}

/-- A call of `handler_dispatch`, with the time at which its handler answers. -/
structure Dispatch where
  clock : Clock
  sane : clock.realtime.Sane
  req : MgmtCommandRequest
  resp : MgmtCommandResponse

/-- A registry that the `*_mgmt_register` functions fill: no entry has a null handler. -/
structure ProgramRegistry (X : Type) where
  registry : EventHandlerRegistry Handler X
  real : ∀ e ∈ registry.entries.live, e.handler ≠ .null

theorem handlerRegister_real {r : EventHandlerRegistry Handler X}
    (hr : ∀ e ∈ r.entries.live, e.handler ≠ .null) (m : CStr) (cmdType : UInt8) (p : Program)
    (c : Command) (ctx : X) :
    ∀ e ∈ (handlerRegister r (some m) cmdType (.of p c) ctx).2.entries.live, e.handler ≠ .null := by
  rcases handlerRegister_cases r m cmdType (.of p c) ctx with
      ⟨he, -⟩ | ⟨-, i, -, he⟩ | ⟨-, -, hroom, old, he⟩
  · rw [he]
    exact hr
  · rw [he, SlotTable.live_modify]
    intro e hmem
    obtain ⟨k, hk⟩ := List.mem_iff_getElem?.mp hmem
    rw [List.getElem?_modify] at hk
    obtain ⟨e', he', rfl⟩ := Option.map_eq_some_iff.mp hk
    split
    · simp [EventHandlerEntry.rebind]
    · exact hr e' (List.mem_of_getElem? he')
  · rw [he, SlotTable.live_push _ _ hroom]
    intro e hmem
    rcases List.mem_append.mp hmem with hmem | hmem
    · exact hr e hmem
    · obtain rfl := List.mem_singleton.mp hmem
      simp [EventHandlerEntry.fill]

def ProgramRegistry.empty [Zero X] : ProgramRegistry X where
  registry := (handlerRegistryInit true .static).2
  real := by
    have hlive :
        (handlerRegistryInit true (.static : EventHandlerRegistry Handler X)).2.entries.live = [] :=
      rfl
    simp [hlive]

def ProgramRegistry.register (p : Program) (r : ProgramRegistry X) (ctx : X) :
    ProgramRegistry X where
  registry := (mgmtRegister p r.registry ctx).2
  real := by
    have hping := handlerRegister_real r.real p.name Command.ping.code p .ping ctx
    have hstatus := handlerRegister_real hping p.name Command.getStatus.code p .getStatus ctx
    have hshutdown := handlerRegister_real hstatus p.name Command.shutdown.code p .shutdown ctx
    unfold mgmtRegister
    dsimp only
    split
    · exact hping
    · split
      · exact hstatus
      · split
        · exact hshutdown
        · exact hshutdown

structure State (X : Type) where
  registry : EventHandlerRegistry Handler X
  /-- For each slot, the latencies of the requests it has answered. -/
  log : Nat → List Nat

/-- The slot that answers the request, if it is accepted. -/
def slotOf (r : EventHandlerRegistry Handler X) (req : MgmtCommandRequest) : Option Nat :=
  if mgmtRequestValidate req then r.place req.key else none

variable (startTime : X → Int64)

def dispatch (r : EventHandlerRegistry Handler X) (d : Dispatch) : DispatchOutcome Handler X :=
  handlerDispatch (programCode startTime) d.clock r d.req d.resp

def step (s : State X) (d : Dispatch) : Option (State X) :=
  let o := dispatch startTime s.registry d
  some ⟨o.registry, match slotOf s.registry d.req with
    | none => s.log
    | some i => Function.update s.log i (s.log i ++ [latencyUs d.req o.resp])⟩

def start (r : EventHandlerRegistry Handler X) : State X := ⟨(handlerStatsReset r).2, fun _ => []⟩

def recordLatency {H : Type} (us : UInt64) (e : EventHandlerEntry H X) : EventHandlerEntry H X :=
  { e with invocationCount := e.invocationCount + 1, totalLatencyUs := e.totalLatencyUs + us }

/-- The response keeps the time of the request, and the entry grows by the latency. -/
def RecordsLatency (s : State X) (d : Dispatch) : Prop :=
  ∀ i, slotOf s.registry d.req = some i →
    let o := dispatch startTime s.registry d
    o.resp.requestTimestamp = d.req.timestamp ∧
      o.registry.entries.live[i]?.map (·.totalLatencyUs) =
        s.registry.entries.live[i]?.map (·.totalLatencyUs + .ofNat (latencyUs d.req o.resp))

/-- Each entry holds the sum of its latencies, and `handler_list` reports their mean unless a
counter has overflown. -/
def Totals (s : State X) : Prop :=
  ∀ (i : Nat) (e : EventHandlerEntry Handler X), s.registry.entries.live[i]? = some e →
    e.totalLatencyUs = .ofNat (s.log i).sum ∧
    ((s.log i).length < 2 ^ 32 → (s.log i).sum < 2 ^ 64 →
      e.avgLatency.toNat = (s.log i).sum / (s.log i).length)

/-- An accepted request carries the time zero. -/
def StampZero (s : State X) (d : Dispatch) : Prop :=
  Addressed s.registry d.req → d.req.timestamp = ⟨0, 0⟩

theorem addressed_iff_slotOf (r : EventHandlerRegistry Handler X) (req : MgmtCommandRequest) :
    Addressed r req ↔ ∃ i, slotOf r req = some i := by
  rw [addressed_iff, slotOf]
  cases hv : mgmtRequestValidate req with
  | false => simp
  | true => simp [Option.ne_none_iff_exists']

theorem latency_responseInit (clock : Clock) (id : UInt32) (result code : UInt8)
    (module : Option CStr) (payload : List UInt8) :
    mgmtResponseLatencyUs
      { mgmtResponseInit clock id result module payload with resultCode := code } =
      clock.realtime.toUs := by
  -- a response made by `mgmt_response_init` has no request time, and its latency is the time
  -- of day
  have hzero : (⟨0, 0⟩ : Timespec).toUs = 0 := by decide
  have hreq : (mgmtResponseInit clock id result module payload).requestTimestamp = ⟨0, 0⟩ := by
    cases module <;> rfl
  have hresp : (mgmtResponseInit clock id result module payload).responseTimestamp =
      clock.realtime := by
    cases module <;> rfl
  simp only [mgmtResponseLatencyUs, hreq, hresp, hzero]
  split
  · simp
  · rename_i hle
    exact (UInt64.le_zero_iff.mp (UInt64.not_lt.mp hle)).symm

theorem dispatch_rejected {r : EventHandlerRegistry Handler X} {d : Dispatch}
    (h : slotOf r d.req = none) : (dispatch startTime r d).registry = r := by
  unfold dispatch
  rcases handlerDispatch_cases (programCode startTime) d.clock r d.req d.resp with
    ⟨-, he⟩ | ⟨-, -, he⟩ | ⟨hv, slot, e, hp, -, -⟩
  · rw [he]
  · rw [he]
  · simp [slotOf, hv, hp] at h

theorem dispatch_program {r : EventHandlerRegistry Handler X} {d : Dispatch} {i : Nat}
    (hreal : ∀ e ∈ r.entries.live, e.handler ≠ .null) (h : slotOf r d.req = some i) :
    (dispatch startTime r d).resp.requestTimestamp = ⟨0, 0⟩ ∧
    (dispatch startTime r d).resp.responseTimestamp = d.clock.realtime ∧
    (dispatch startTime r d).registry.entries.live =
      r.entries.live.modify i (recordLatency d.clock.realtime.toUs) := by
  unfold dispatch
  rcases handlerDispatch_cases (programCode startTime) d.clock r d.req d.resp with
    ⟨hv, -⟩ | ⟨hv, hp, -⟩ | ⟨hv, slot, e, hp, hlive, he⟩
  · simp [slotOf, hv] at h
  · simp [slotOf, hv, hp] at h
  · obtain rfl : slot.val = i := by simpa [slotOf, hv, hp] using h
    obtain ⟨p, c, hhandler⟩ : ∃ p c, e.handler = .of p c := by
      cases hcase : e.handler with
      | null => exact absurd hcase (hreal e (List.mem_of_getElem? hlive))
      | of p c => exact ⟨p, c, rfl⟩
    obtain ⟨payload, hcode⟩ :=
      programCode_of startTime p c d.clock d.req (prepareResponse d.req d.resp) e.context
    obtain ⟨code, hresp⟩ := dispatchAccount_resp r slot 0
      (mgmtResponseInit d.clock d.req.requestId MgmtResultCode.ok.code (some p.name) payload)
    rw [he, hhandler, hcode]
    dsimp only
    refine ⟨by rw [hresp]; rfl, by rw [hresp]; rfl, ?_⟩
    have hlatency := latency_responseInit d.clock d.req.requestId MgmtResultCode.ok.code code
        (some p.name) payload
    rw [← hresp] at hlatency
    simp only [dispatchAccount, SlotTable.live_modify] at hlatency ⊢
    rw [hlatency]
    rfl

/-! ## Runs of dispatches -/

structure Inv (s : State X) : Prop where
  real : ∀ e ∈ s.registry.entries.live, e.handler ≠ .null
  counts : ∀ (i : Nat) (e : EventHandlerEntry Handler X), s.registry.entries.live[i]? = some e →
    e.invocationCount = .ofNat (s.log i).length ∧ e.totalLatencyUs = .ofNat (s.log i).sum

theorem start_inv (r : ProgramRegistry X) : Inv (start r.registry) := by
  have hlive : (start r.registry).registry.entries.live =
      r.registry.entries.live.map fun e => { e with invocationCount := 0, totalLatencyUs := 0 } :=
    SlotTable.live_mapLive _ _
  refine ⟨?_, ?_⟩
  · intro e he
    rw [hlive] at he
    obtain ⟨e', he', rfl⟩ := List.mem_map.mp he
    exact r.real e' he'
  · intro i e he
    rw [hlive, List.getElem?_map] at he
    obtain ⟨e', -, rfl⟩ := Option.map_eq_some_iff.mp he
    exact ⟨rfl, rfl⟩

theorem ofNat_latencyUs {d : Dispatch} {resp : MgmtCommandResponse}
    (hzero : d.req.timestamp = ⟨0, 0⟩) (hresp : resp.responseTimestamp = d.clock.realtime) :
    UInt64.ofNat (latencyUs d.req resp) = d.clock.realtime.toUs := by
  -- with the time zero in the request, the time of day is the latency
  have hus := toUs_toNat d.sane
  have hreq : (⟨0, 0⟩ : Timespec).microseconds = 0 := by decide
  have hlatency : latencyUs d.req resp = d.clock.realtime.toUs.toNat := by
    rw [latencyUs, hzero, hresp, hreq]
    omega
  rw [hlatency, UInt64.ofNat_toNat]

theorem step_inv (s : State X) (d : Dispatch) (s' : State X) (h : Inv s) (hzero : StampZero s d)
    (hs : step startTime s d = some s') : Inv s' := by
  obtain rfl := Option.some.inj hs
  cases hslot : slotOf s.registry d.req with
  | none =>
    rw [dispatch_rejected startTime hslot]
    exact h
  | some i =>
    obtain ⟨-, hresp, hlive⟩ := dispatch_program startTime h.real hslot
    have hstamp := hzero ((addressed_iff_slotOf _ _).mpr ⟨i, hslot⟩)
    have hgrow := ofNat_latencyUs hstamp hresp
    refine ⟨?_, ?_⟩
    · intro e he
      rw [hlive] at he
      obtain ⟨k, hk⟩ := List.mem_iff_getElem?.mp he
      rw [List.getElem?_modify] at hk
      obtain ⟨e', he', rfl⟩ := Option.map_eq_some_iff.mp hk
      have hreal := h.real e' (List.mem_of_getElem? he')
      split <;> exact hreal
    · intro k e hk
      rw [hlive, List.getElem?_modify] at hk
      obtain ⟨e', he', rfl⟩ := Option.map_eq_some_iff.mp hk
      obtain ⟨hcount, htotal⟩ := h.counts k e' he'
      by_cases hki : i = k
      · subst hki
        simp only [if_pos, Function.update_self, recordLatency, hcount, htotal, ← hgrow]
        simp [UInt32.ofNat_add, UInt64.ofNat_add]
      · simp only [if_neg hki, Function.update_of_ne (Ne.symm hki)]
        exact ⟨hcount, htotal⟩

theorem totals_of_inv {s : State X} (h : Inv s) : Totals s := by
  intro i e he
  obtain ⟨hcount, htotal⟩ := h.counts i e he
  refine ⟨htotal, fun hlength hsum => ?_⟩
  rw [EventHandlerEntry.avgLatency]
  split
  · rw [UInt64.toNat_div, UInt32.toNat_toUInt64, hcount, htotal, UInt64.toNat_ofNat_of_lt' hsum,
      UInt32.toNat_ofNat_of_lt' hlength]
  · rename_i hzero
    have hnone : (s.log i).length = 0 := by
      have := UInt32.toNat_ofNat_of_lt' hlength
      rw [← hcount, UInt32.le_zero_iff.mp (UInt32.not_lt.mp hzero)] at this
      exact this.symm
    simp [hnone]

theorem recordsLatency_iff (s : State X) (d : Dispatch) (h : Inv s) :
    RecordsLatency startTime s d ↔ StampZero s d := by
  constructor
  · intro hrec haddr
    obtain ⟨i, hslot⟩ := (addressed_iff_slotOf _ _).mp haddr
    obtain ⟨hstamp, -, -⟩ := dispatch_program startTime h.real hslot
    rw [← (hrec i hslot).1, hstamp]
  · intro hzero i hslot
    obtain ⟨hstamp, hresp, hlive⟩ := dispatch_program startTime h.real hslot
    have hreq := hzero ((addressed_iff_slotOf _ _).mpr ⟨i, hslot⟩)
    refine ⟨hstamp.trans hreq.symm, ?_⟩
    rw [ofNat_latencyUs hreq hresp, hlive, List.getElem?_modify_eq, Option.map_eq_map,
      Option.map_map]
    rfl

/-- Over any run of dispatches, each response keeps the time of its request, each entry sums up the
latencies and `handler_list` reports their mean, exactly if every accepted request carries the time
zero. -/
theorem latency_recorded_iff (r : ProgramRegistry X) (ds : List Dispatch) :
    (Along (step startTime) (RecordsLatency startTime) (start r.registry) ds ∧
      ∀ s, exec (step startTime) (start r.registry) ds = some s → Totals s) ↔
    Along (step startTime) StampZero (start r.registry) ds := by
  have halong := along_congr (step_inv startTime) (recordsLatency_iff startTime) (start_inv r) ds
  constructor
  · rintro ⟨hrec, -⟩
    exact halong.mp hrec
  · intro hzero
    refine ⟨halong.mpr hzero, fun s hrun => ?_⟩
    exact totals_of_inv (invariant (step_inv startTime) (start_inv r) hzero hrun)

/-- What `main` of Router sets up. -/
def routerProgram : ProgramRegistry Pointer := .register .router .empty ⟨1⟩

/-- A ping to the router, sent at 99 s and answered at 100 s. -/
def secondLong : Dispatch where
  clock := ⟨⟨100, 0⟩, 100⟩
  sane := ⟨by decide, by decide⟩
  req := mgmtRequestInit ⟨⟨99, 0⟩, 99⟩ Command.ping.code (some router) []
  resp := .zero

theorem second_recorded_as_hundred :
    let o := dispatch (fun _ => 0) routerProgram.registry secondLong
    o.resp.requestTimestamp = ⟨0, 0⟩ ∧ latencyUs secondLong.req o.resp = 1000000 ∧
      o.registry.entries.live.map (·.totalLatencyUs) = [100000000, 0, 0] := by
  decide +kernel

end Latency

end StudyC.Mgmt
