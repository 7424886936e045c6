import Mathlib.Data.Fintype.Basic
import StudyC.Lib.Tally
import StudyC.Mgmt.SocketStats

/-!
# The counters of the socket, read while calls run

`mgmt_socket_process_one` takes the lock of the counters three times in one call. Other calls,
`mgmt_socket_stats` and `mgmt_socket_stats_reset` may come in between.

* `process_alone`: the steps of a call that nothing interrupts are those of `mgmtSocketProcessOne`.
* `observations_consistent`: what is read is consistent if no reset falls into a call.
* `reset_safe_iff`: a reset that falls into a call shows sooner or later.
-/

open Runs Tally

namespace StudyC.Mgmt.Observations

/-- What `mgmt_socket_stats` stores. -/
structure Stats where
  totalRequests : UInt64
  totalResponses : UInt64
  failedRequests : UInt64
  deriving DecidableEq

def mgmtSocketStats (sock : MgmtSocket) : Stats :=
  ⟨sock.totalRequests, sock.totalResponses, sock.failedRequests⟩

def mgmtSocketStatsReset (sock : MgmtSocket) : MgmtSocket :=
  { sock with totalRequests := 0, totalResponses := 0, failedRequests := 0 }

/-- Where a thread is in `mgmt_socket_process_one`. -/
inductive Phase where
  /-- Its request, if it has one, is not counted. -/
  | idle
  /-- In `handler_dispatch`. -/
  | counted
  /-- At `sendto`. -/
  | dispatched
  deriving DecidableEq

variable {T : Type}

structure State (T : Type) where
  socket : MgmtSocket
  phase : T → Phase
  /-- All that was read so far. -/
  seen : List Stats

/-- A step up to the end of the next critical section. -/
inductive Action (T : Type) where
  | receive (t : T)
  | dispatch (t : T) (result : Int)
  | reply (t : T) (sendOk : Bool)
  | stats
  | statsReset

def step [DecidableEq T] (s : State T) : Action T → Option (State T)
  | .receive t =>
    if s.phase t = .idle then
      some { s with
        socket := { s.socket with totalRequests := s.socket.totalRequests + 1 }
        phase := Function.update s.phase t .counted }
    else none
  | .dispatch t result =>
    if s.phase t = .counted then
      some { s with
        socket := if result ≠ 0 then { s.socket with failedRequests := s.socket.failedRequests + 1 }
          else s.socket
        phase := Function.update s.phase t .dispatched }
    else none
  | .reply t sendOk =>
    if s.phase t = .dispatched then
      some { s with
        socket := if sendOk then { s.socket with totalResponses := s.socket.totalResponses + 1 }
          else s.socket
        phase := Function.update s.phase t .idle }
    else none
  | .stats => some { s with seen := s.seen ++ [mgmtSocketStats s.socket] }
  | .statsReset => some { s with socket := mgmtSocketStatsReset s.socket }

/-- After `mgmt_socket_create`. -/
def start (fd : Int) : State T := ⟨⟨fd, 0, 0, 0⟩, fun _ => .idle, []⟩

structure Consistent (x : Stats) : Prop where
  responses : x.totalResponses ≤ x.totalRequests
  failures : x.failedRequests ≤ x.totalRequests

/-! ## One call -/

section
variable [DecidableEq T] {H X : Type}

theorem process_alone {s : State T} {t : T} (ht : s.phase t = .idle) {timeoutMs : Int}
    {env : SocketEnv} {req : MgmtCommandRequest}
    (hreq : SocketStats.received s.socket timeoutMs env = some req) (code : HandlerCode H X)
    (clock : Clock) (r : EventHandlerRegistry H X) :
    exec step s [.receive t, .dispatch t (handlerDispatch code clock r req .zero).ret,
      .reply t env.sendOk] =
      some { s with socket := (mgmtSocketProcessOne code clock s.socket timeoutMs env r).socket
        } := by
  have hphase : Function.update s.phase t .idle = s.phase := by
    rw [← ht, Function.update_eq_self]
  unfold SocketStats.received at hreq
  split at hreq
  · rename_i hreceives
    obtain ⟨d, hd, rfl⟩ := Option.map_eq_some_iff.mp hreq
    unfold mgmtSocketProcessOne
    rw [if_neg hreceives.1, if_neg hreceives.2, hd]
    dsimp only
    generalize handlerDispatch code clock r _ _ = o
    cases env.sendOk <;> by_cases hret : o.ret = 0 <;> simp [exec, step, ht, hret, hphase]
  · simp at hreq

end

/-! ## Runs without a reset in a call -/

/-- The counter of the requests does not wrap. -/
def Few (s : State T) : Action T → Prop
  | .receive _ => s.socket.totalRequests.toNat + 1 < 2 ^ 64
  | _ => True

/-- A reset finds no call under way. -/
def Quiet (s : State T) : Action T → Prop
  | .statsReset => ∀ t, s.phase t = .idle
  | _ => True

instance (s : State T) : ∀ a, Decidable (Few s a)
  | .receive _ => inferInstanceAs (Decidable (_ < _))
  | .dispatch _ _ | .reply _ _ | .stats | .statsReset => .isTrue trivial

instance [Fintype T] (s : State T) : ∀ a, Decidable (Quiet s a)
  | .statsReset => inferInstanceAs (Decidable (∀ _, _))
  | .receive _ | .dispatch _ _ | .reply _ _ | .stats => .isTrue trivial

/-- A request stays counted until its call is over, and the calls under way have one each. -/
structure Inv (sock : MgmtSocket) (phase : T → Phase) : Prop where
  responses : Covered (· ≠ Phase.idle) phase sock.totalResponses.toNat sock.totalRequests.toNat
  failures : Covered (· = Phase.counted) phase sock.failedRequests.toNat sock.totalRequests.toNat

theorem inv_of_idle {sock : MgmtSocket} {phase : T → Phase} (h : ∀ t, phase t = .idle) :
    Inv (mgmtSocketStatsReset sock) phase := by
  constructor
  · exact covered_of_none (fun t => not_not.mpr (h t)) (Nat.le_refl 0)
  · exact covered_of_none (fun t => by simp [h t]) (Nat.le_refl 0)

theorem Inv.consistent {sock : MgmtSocket} {phase : T → Phase} (h : Inv sock phase) :
    Consistent (mgmtSocketStats sock) :=
  ⟨UInt64.le_iff_toNat_le.mpr h.responses.le, UInt64.le_iff_toNat_le.mpr h.failures.le⟩

theorem toNat_succ_le (x : UInt64) : (x + 1).toNat ≤ x.toNat + 1 := by
  rw [UInt64.toNat_add]
  exact Nat.mod_le _ _

section
variable [DecidableEq T]

theorem step_inv (s : State T) (a : Action T) (s' : State T) (h : Inv s.socket s.phase)
    (ha : Few s a ∧ Quiet s a) (hs : step s a = some s') : Inv s'.socket s'.phase := by
  cases a with
  | receive t =>
    simp only [step, Option.ite_none_right_eq_some, Option.some.injEq] at hs
    obtain ⟨ht, rfl⟩ := hs
    have hnext : (s.socket.totalRequests + 1).toNat = s.socket.totalRequests.toNat + 1 := by
      rw [UInt64.toNat_add]
      exact Nat.mod_eq_of_lt ha.1
    constructor
    · simp only [hnext]
      exact h.responses.enter (by simp [ht]) (by simp)
    · simp only [hnext]
      exact h.failures.enter (by simp [ht]) rfl
  | dispatch t result =>
    simp only [step, Option.ite_none_right_eq_some, Option.some.injEq] at hs
    obtain ⟨ht, rfl⟩ := hs
    constructor
    · have hstay := h.responses.stay (t := t) (x := Phase.dispatched) (by simp [ht]) (Nat.le_refl _)
      split <;> exact hstay
    · split
      · exact h.failures.leave ht (by decide) (toNat_succ_le _)
      · exact h.failures.leave ht (by decide) (Nat.le_succ _)
  | reply t sendOk =>
    simp only [step, Option.ite_none_right_eq_some, Option.some.injEq] at hs
    obtain ⟨ht, rfl⟩ := hs
    constructor
    · split
      · exact h.responses.leave (by simp [ht]) (by simp) (toNat_succ_le _)
      · exact h.responses.leave (by simp [ht]) (by simp) (Nat.le_succ _)
    · have hstay := h.failures.stay (t := t) (x := Phase.idle) (by simp [ht]) (Nat.le_refl _)
      split <;> exact hstay
  | stats =>
    obtain rfl := Option.some.inj hs
    exact h
  | statsReset =>
    obtain rfl := Option.some.inj hs
    exact inv_of_idle ha.2

theorem step_seen {s s' : State T} {a : Action T} (hs : step s a = some s') :
    s'.seen = s.seen ∨ s'.seen = s.seen ++ [mgmtSocketStats s.socket] := by
  cases a with
  | stats =>
    obtain rfl := Option.some.inj hs
    exact .inr rfl
  | statsReset =>
    obtain rfl := Option.some.inj hs
    exact .inl rfl
  | receive t | dispatch t result | reply t sendOk =>
    simp only [step, Option.ite_none_right_eq_some, Option.some.injEq] at hs
    obtain ⟨-, rfl⟩ := hs
    exact .inl rfl

/-- All that the run from `s` to `t` has read is consistent. -/
def ReadsConsistent (s t : State T) : Prop :=
  ∃ more, t.seen = s.seen ++ more ∧ ∀ x ∈ more, Consistent x

theorem run_consistent {s t : State T} {as : List (Action T)} (hinv : Inv s.socket s.phase)
    (halong : Along step (fun s a => Few s a ∧ Quiet s a) s as) (hrun : exec step s as = some t) :
    ReadsConsistent s t := by
  have hboth : Inv t.socket t.phase ∧ ReadsConsistent s t := by
    refine invariant (I := fun t : State T => Inv t.socket t.phase ∧ ReadsConsistent s t) ?_
      ⟨hinv, [], (List.append_nil _).symm, List.forall_mem_nil _⟩ halong hrun
    rintro t a t' ⟨h, more, hmore, hall⟩ ha ht'
    refine ⟨step_inv t a t' h ha ht', ?_⟩
    rcases step_seen ht' with heq | heq
    · exact ⟨more, heq.trans hmore, hall⟩
    · refine ⟨more ++ [mgmtSocketStats t.socket], by rw [heq, hmore, List.append_assoc], ?_⟩
      exact List.forall_mem_append.mpr ⟨hall, List.forall_mem_singleton.mpr h.consistent⟩
  exact hboth.2

/-- Every triple is consistent in a run whose resets find no call under way and whose requests are
fewer than the counter can hold. -/
theorem observations_consistent {fd : Int} {as : List (Action T)} {t : State T}
    (halong : Along step (fun s a => Few s a ∧ Quiet s a) (start fd) as)
    (hrun : exec step (start fd) as = some t) : ∀ x ∈ t.seen, Consistent x := by
  have hinv : Inv (mgmtSocketStatsReset ⟨fd, 0, 0, 0⟩) (fun _ : T => Phase.idle) :=
    inv_of_idle fun _ => rfl
  obtain ⟨more, hmore, hall⟩ := run_consistent hinv halong hrun
  rw [start, List.nil_append] at hmore
  rwa [hmore]

end

/-- Two calls at once, a reset after both and a third call. -/
def overlappingCalls : List (Action Bool) :=
  [.receive true, .receive false, .dispatch true 1, .stats, .reply true true,
    .dispatch false 0, .stats, .reply false false, .statsReset, .receive true, .stats]

theorem overlapping_calls_consistent :
    ∃ t, exec step (start 3) overlappingCalls = some t ∧
      t.seen = [⟨2, 0, 1⟩, ⟨2, 1, 1⟩, ⟨1, 0, 0⟩] ∧
      ∀ x ∈ t.seen, Consistent x := by
  have hseen : (exec step (start 3) overlappingCalls).map State.seen =
      some [⟨2, 0, 1⟩, ⟨2, 1, 1⟩, ⟨1, 0, 0⟩] := by
    decide
  obtain ⟨t, hrun, ht⟩ := Option.map_eq_some_iff.mp hseen
  exact ⟨t, hrun, ht, observations_consistent (by decide) hrun⟩

theorem reset_between_counters :
    ∃ t, exec step (start 3) [.receive (), .statsReset, .dispatch () 0, .reply () true, .stats] =
      some t ∧
      t.seen = [⟨0, 1, 0⟩] ∧ ¬ ∀ x ∈ t.seen, Consistent x := by
  refine ⟨_, rfl, rfl, ?_⟩
  intro h
  exact absurd (h _ (.head _)).responses (by decide)

/-! ## Resets in a call -/

section
variable [DecidableEq T]

/-- The state after `mgmt_socket_stats_reset`. -/
def afterReset (s : State T) : State T := { s with socket := mgmtSocketStatsReset s.socket }

theorem reset_in_flight_breaks {s : State T} {t : T} (ht : s.phase t ≠ .idle) :
    ∃ as u, (∀ a ∈ as, a ≠ .statsReset) ∧ Along step Few (afterReset s) as ∧
      exec step (afterReset s) as = some u ∧
      u.seen = s.seen ++ [⟨0, 1, 0⟩] := by
  -- a call that is under way when the counters are reset can finish before the next one is
  -- counted
  cases hphase : s.phase t with
  | idle => exact absurd hphase ht
  | counted =>
    refine ⟨[.dispatch t 0, .reply t true, .stats], ?_⟩
    simp [exec, step, Along, Few, afterReset, mgmtSocketStatsReset, mgmtSocketStats, hphase]
  | dispatched =>
    refine ⟨[.reply t true, .stats], ?_⟩
    simp [exec, step, Along, Few, afterReset, mgmtSocketStatsReset, mgmtSocketStats, hphase]

/-- A reset is safe, whatever comes after it, only when no call is under way. -/
theorem reset_safe_iff (s : State T) :
    (∀ as u, (∀ a ∈ as, a ≠ .statsReset) → Along step Few (afterReset s) as →
      exec step (afterReset s) as = some u →
      ReadsConsistent s u) ↔ ∀ t, s.phase t = .idle := by
  constructor
  · intro hsafe t
    by_contra ht
    obtain ⟨as, u, has, hfew, hrun, hseen⟩ := reset_in_flight_breaks ht
    obtain ⟨more, hmore, hall⟩ := hsafe as u has hfew hrun
    obtain rfl := List.append_cancel_left (hseen.symm.trans hmore)
    exact absurd (hall _ (.head _)).responses (by decide)
  · intro hidle as u has hfew hrun
    have hquiet : Along step Quiet (afterReset s) as := by
      refine along_of_forall_mem (fun a ha s' => ?_) _
      cases a with
      | statsReset => exact absurd rfl (has _ ha)
      | receive t | dispatch t result | reply t sendOk | stats => trivial
    exact run_consistent (s := afterReset s) (inv_of_idle hidle) (hfew.and hquiet) hrun

end

end StudyC.Mgmt.Observations
