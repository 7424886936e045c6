import Mathlib.Data.Prod.Lex
import StudyC.Collector.Loop
import StudyC.Lib.Fairness

/-!
# Collector serves its management socket

UDP datagrams and other requests may come without end. A `SHUTDOWN` that waits at the management
socket is still received, and the loop is left, because every round takes at most one datagram from
each socket. This takes a run that is also fair to those whom the loop waits for outside of `poll`:
who has the mutex of the shared memory lets it go, and a client that has replies to read reads one,
or closes its socket.
-/

open Runs

namespace StudyC.Collector.Loop

open Mgmt.Worker (Client)

/-- The flag is down, or a `SHUTDOWN` is waiting. -/
def StopAhead (s : State) : Prop :=
  s.gKeepRunning = false ∨ s.mgmtSock = true ∧ .shutdown ∈ s.mgmt.map Prod.snd

inductive Mover where
  | loop
  | shm
  | client (c : Client)
  deriving DecidableEq

def mover (s : State) : Action → Option Mover
  | .loop => match s.phase with
    | .writing _ => some .shm
    | _ => some .loop
  | .mgmtClient a => if 0 < s.clients.unread a.owner then some (.client a.owner) else none
  | .fail | .sigHandler | .udpArrives _ | .mgmtArrives _ _ => none

/-- Who lets the loop go on. -/
def helpful (s : State) : Mover :=
  match s.phase with
  | .writing _ => .shm
  | .replying c => if 0 < s.clients.excess c then .client c else .loop
  | _ => .loop

/-- The handler stays out of the window, and no receive at the management socket fails. -/
structure Undisturbed (s : State) (a : Action) : Prop where
  window : OutsideWindow s a
  received : a = .fail → s.phase ≠ .mgmtEvents true

/-! ## The measure -/

/-- The steps that are left once the flag is down. -/
def Phase.rank : Phase → Nat
  | .callPoll => 7
  | .polling => 6
  | .udpEvents _ _ => 5
  | .writing _ => 4
  | .mgmtEvents _ => 3
  | .replying _ => 2
  | .test => 1
  | .left => 0

/-- The steps up to the next receive, for a request that the round may not have seen yet. -/
def Phase.toServe : Phase → Nat
  | .udpEvents _ false => 10
  | .writing false => 9
  | .mgmtEvents false => 8
  | .replying _ => 7
  | .test => 6
  | .callPoll => 5
  | .polling => 4
  | .udpEvents _ true => 3
  | .writing true => 2
  | .mgmtEvents true => 1
  | .left => 0

/-- A round for each request before the `SHUTDOWN`, and the way out after it. -/
def stopRank (s : State) : Nat :=
  if s.gKeepRunning then 8 + 10 * (s.mgmt.map Prod.snd).idxOf .shutdown + s.phase.toServe
  else s.phase.rank

def replyRank (s : State) : Nat :=
  match s.phase with
  | .replying c => s.clients.excess c
  | _ => 0

def rank (s : State) : Nat ×ₗ Nat := toLex (stopRank s, replyRank s)

theorem stopRank_lt_of_stopped {s s' : State} (hs : s.gKeepRunning = true)
    (hs' : s'.gKeepRunning = false) : stopRank s' < stopRank s := by
  have hrank : s'.phase.rank ≤ 7 := by cases s'.phase <;> simp [Phase.rank]
  simp only [stopRank, hs, hs', if_true, Bool.false_eq_true, if_false]
  omega

theorem stopRank_lt_of_phase {s s' : State} (hkeep : s'.gKeepRunning = s.gKeepRunning)
    (hmgmt : s'.mgmt = s.mgmt) (hserve : s.gKeepRunning = true → s'.phase.toServe < s.phase.toServe)
    (hrank : s.gKeepRunning = false → s'.phase.rank < s.phase.rank) : stopRank s' < stopRank s := by
  cases hrun : s.gKeepRunning with
  | true => simpa [stopRank, hkeep, hmgmt, hrun] using hserve hrun
  | false => simpa [stopRank, hkeep, hrun] using hrank hrun

/-! ## What `poll` has found is there -/

def Phase.udpIn : Phase → Bool
  | .udpEvents udpIn _ => udpIn
  | _ => false

def Phase.mgmtIn : Phase → Bool
  | .udpEvents _ mgmtIn | .writing mgmtIn | .mgmtEvents mgmtIn => mgmtIn
  | _ => false

structure Found (s : State) : Prop where
  udp : s.phase.udpIn = true → s.udp ≠ []
  mgmt : s.phase.mgmtIn = true → s.mgmt ≠ []

theorem loopStep_found {s s' : State} (h : Found s) (hs : loopStep s = some s') : Found s' := by
  obtain ⟨hudp, hmgmt⟩ := h
  cases hphase : s.phase with
  | udpEvents udpIn mgmtIn =>
    have hin : mgmtIn = true → s.mgmt ≠ [] := by simpa [hphase, Phase.mgmtIn] using hmgmt
    simp only [loopStep, hphase] at hs
    split at hs
    · obtain ⟨n, rest, -, rfl⟩ := handleUdpRead_phase hs
      by_cases hn : 0 < n
        <;> exact ⟨by simp [hn, Phase.udpIn], by simpa [hn, Phase.mgmtIn] using hin⟩
    · obtain rfl := Option.some.inj hs
      exact ⟨by simp [Phase.udpIn], by simpa [Phase.mgmtIn] using hin⟩
  | mgmtEvents mgmtIn =>
    simp only [loopStep, hphase] at hs
    split at hs
    · obtain ⟨c, r, rest, -, rfl⟩ := processOne_phase hs
      exact ⟨by simp [Phase.udpIn], by simp [Phase.mgmtIn]⟩
    · obtain rfl := Option.some.inj hs
      exact ⟨by simp [Phase.udpIn], by simp [Phase.mgmtIn]⟩
  | test =>
    simp only [loopStep, hphase] at hs
    obtain rfl := Option.some.inj hs
    cases hkeep : s.gKeepRunning <;> exact ⟨by simp [Phase.udpIn], by simp [Phase.mgmtIn]⟩
  | polling | callPoll | writing mgmtIn | replying c | left =>
    simp only [loopStep, hphase] at hs
    repeat' split at hs
    all_goals first
      | (simp at hs; done)
      | (obtain rfl := Option.some.inj hs
         constructor <;> simp_all [Phase.udpIn, Phase.mgmtIn])

theorem failStep_found {s s' : State} (h : Found s) (hs : failStep s = some s') : Found s' := by
  have hmgmt := h.mgmt
  unfold failStep at hs
  split at hs
  all_goals first
    | (simp at hs; done)
    | (obtain rfl := Option.some.inj hs
       constructor <;> simp_all [Phase.udpIn, Phase.mgmtIn])

theorem step_found {s s' : State} {a : Action} (h : Found s) (hs : step s a = some s') :
    Found s' := by
  cases a with
  | loop => exact loopStep_found h hs
  | fail => exact failStep_found h hs
  | sigHandler =>
    obtain rfl := Option.some.inj hs
    by_cases hpolling : s.phase = .polling
    · exact ⟨by simp [hpolling, Phase.udpIn], by simp [hpolling, Phase.mgmtIn]⟩
    · exact ⟨by simpa [hpolling] using h.udp, by simpa [hpolling] using h.mgmt⟩
  | udpArrives size =>
    obtain rfl := Option.some.inj hs
    exact ⟨by simp, h.mgmt⟩
  | mgmtArrives c r =>
    obtain rfl := Option.some.inj hs
    exact ⟨h.udp, by simp⟩
  | mgmtClient a =>
    obtain ⟨clients, -, rfl⟩ := Option.map_eq_some_iff.mp hs
    exact ⟨h.udp, h.mgmt⟩

/-! ## Who is waited for can go on -/

theorem readable_of_shutdown {s : State} (hsock : s.mgmtSock = true)
    (hmem : .shutdown ∈ s.mgmt.map Prod.snd) : s.readable = true := by
  have hne : s.mgmt ≠ [] := by
    rintro hnil
    simp [hnil] at hmem
  simp [State.readable, hsock, hne]

theorem polling_readable {s : State} (hwakes : Wakes s) (hstop : StopAhead s)
    (hphase : s.phase = .polling) : s.readable = true := by
  rcases hstop with hkeep | ⟨hsock, hmem⟩
  · rcases hwakes (Or.inr hphase) with hrunning | hinput
    · simp [hkeep] at hrunning
    · exact hinput
  · exact readable_of_shutdown hsock hmem

theorem helpful_enabled {s : State} (hwakes : Wakes s) (hfound : Found s) (hstop : StopAhead s)
    (hleft : ¬ s.phase = .left) : Enabled step mover (helpful s) s := by
  cases hphase : s.phase with
  | left => exact absurd hphase hleft
  | writing mgmtIn =>
    exact ⟨.loop, by simp [mover, helpful, hphase], by simp [step, loopStep, hphase]⟩
  | polling =>
    refine ⟨.loop, by simp [mover, helpful, hphase], ?_⟩
    simp [step, loopStep, hphase, polling_readable hwakes hstop hphase]
  | udpEvents udpIn mgmtIn =>
    refine ⟨.loop, by simp [mover, helpful, hphase], ?_⟩
    cases udpIn with
    | false => simp [step, loopStep, hphase]
    | true =>
      obtain ⟨n, rest, hudp⟩ :=
        List.exists_cons_of_ne_nil (hfound.udp (by simp [hphase, Phase.udpIn]))
      simp [step, loopStep, hphase, handleUdpRead, hudp]
  | mgmtEvents mgmtIn =>
    refine ⟨.loop, by simp [mover, helpful, hphase], ?_⟩
    cases mgmtIn with
    | false => simp [step, loopStep, hphase]
    | true =>
      obtain ⟨⟨c, r⟩, rest, hmgmt⟩ :=
        List.exists_cons_of_ne_nil (hfound.mgmt (by simp [hphase, Phase.mgmtIn]))
      simp [step, loopStep, hphase, processOne, hmgmt]
  | replying c =>
    by_cases hfull : 0 < s.clients.excess c
    · obtain ⟨hpos, htake⟩ := Mailboxes.exists_step hfull
      refine ⟨.mgmtClient (.take c), ?_, by simp [step, htake]⟩
      simp [mover, helpful, hphase, hfull, Mailboxes.Action.owner, hpos]
    · have hroom := Mailboxes.accepts_of_excess hfull
      refine ⟨.loop, by simp [mover, helpful, hphase, hfull], ?_⟩
      simp [step, loopStep, hphase, hroom]
  | test | callPoll =>
    exact ⟨.loop, by simp [mover, helpful, hphase], by simp [step, loopStep, hphase]⟩

/-! ## One step -/

/-- A step brings the end nearer, or leaves it and who is waited for as they are. -/
def Progress (s s' : State) (moved : Option Mover) : Prop :=
  rank s' < rank s ∨ rank s' = rank s ∧ helpful s' = helpful s ∧ moved ≠ some (helpful s)

theorem Progress.stop {s s' : State} (moved : Option Mover) (h : stopRank s' < stopRank s) :
    Progress s s' moved :=
  Or.inl (Prod.Lex.toLex_lt_toLex.mpr (Or.inl h))

theorem processOne_shutdown {s s' : State} (hphase : s.phase = .mgmtEvents true)
    (hkeep : s.gKeepRunning = true) (hsock : s.mgmtSock = true)
    (hmem : .shutdown ∈ s.mgmt.map Prod.snd) (hs : processOne s = some s') :
    StopAhead s' ∧ stopRank s' < stopRank s := by
  obtain ⟨c, r, rest, hmgmt, rfl⟩ := processOne_phase hs
  cases r with
  | shutdown => exact ⟨Or.inl (by simp), stopRank_lt_of_stopped hkeep (by simp)⟩
  | other =>
    rw [hmgmt] at hmem
    refine ⟨Or.inr ⟨hsock, by simpa using hmem⟩, ?_⟩
    have hindex : (s.mgmt.map Prod.snd).idxOf .shutdown =
        (rest.map Prod.snd).idxOf .shutdown + 1 := by
      rw [hmgmt, List.map_cons, List.idxOf_cons]
      rfl
    simp [stopRank, hindex, hkeep, hphase, Phase.toServe]
    omega

theorem loopStep_stop {s s' : State} (hstop : StopAhead s) (hs : loopStep s = some s') :
    StopAhead s' ∧ stopRank s' < stopRank s := by
  cases hphase : s.phase with
  | test =>
    simp only [loopStep, hphase] at hs
    obtain rfl := Option.some.inj hs
    refine ⟨hstop, stopRank_lt_of_phase rfl rfl ?_ ?_⟩ <;>
      (intro hkeep; simp [hkeep, hphase, Phase.toServe, Phase.rank])
  | polling =>
    simp only [loopStep, hphase, Option.ite_none_right_eq_some, Option.some.injEq] at hs
    obtain ⟨-, rfl⟩ := hs
    refine ⟨hstop,
      stopRank_lt_of_phase rfl rfl (fun hkeep => ?_) fun _ => by simp [hphase, Phase.rank]⟩
    -- the request is there, and `poll` has seen it
    obtain ⟨hsock, hmem⟩ := hstop.resolve_left (by simp [hkeep])
    have hne : s.mgmt ≠ [] := by
      rintro hnil
      simp [hnil] at hmem
    simp [hsock, hne, hphase, Phase.toServe]
  | udpEvents udpIn mgmtIn =>
    simp only [loopStep, hphase] at hs
    split at hs
    · obtain ⟨n, rest, -, rfl⟩ := handleUdpRead_phase hs
      refine ⟨hstop, stopRank_lt_of_phase rfl rfl (fun _ => ?_) fun _ => ?_⟩ <;>
        (by_cases hn : 0 < n <;> cases mgmtIn <;> simp [hn, hphase, Phase.toServe, Phase.rank])
    · obtain rfl := Option.some.inj hs
      refine ⟨hstop, stopRank_lt_of_phase rfl rfl (fun _ => ?_) fun _ => ?_⟩ <;>
        (cases mgmtIn <;> simp [hphase, Phase.toServe, Phase.rank])
  | mgmtEvents mgmtIn =>
    cases mgmtIn with
    | false =>
      simp only [loopStep, hphase, Bool.false_eq_true, if_false] at hs
      obtain rfl := Option.some.inj hs
      exact ⟨hstop, stopRank_lt_of_phase rfl rfl (by simp [hphase, Phase.toServe])
        (by simp [hphase, Phase.rank])⟩
    | true =>
      simp only [loopStep, hphase, if_true] at hs
      cases hkeep : s.gKeepRunning with
      | false =>
        obtain ⟨c, r, rest, -, rfl⟩ := processOne_phase hs
        exact ⟨Or.inl (by simp [hkeep]), by simp [stopRank, hkeep, hphase, Phase.rank]⟩
      | true =>
        obtain ⟨hsock, hmem⟩ := hstop.resolve_left (by simp [hkeep])
        exact processOne_shutdown hphase hkeep hsock hmem hs
  | callPoll | writing mgmtIn | replying c | left =>
    simp only [loopStep, hphase] at hs
    repeat' split at hs
    all_goals first
      | (simp at hs; done)
      | (obtain rfl := Option.some.inj hs
         refine ⟨hstop, stopRank_lt_of_phase rfl rfl (fun _ => ?_) fun _ => ?_⟩)
    all_goals first
      | (simp [hphase, Phase.rank, Phase.toServe]; done)
      | (cases mgmtIn <;> simp [hphase, Phase.toServe])

theorem failStep_stop {s s' : State} (hstop : StopAhead s) (hreceived : s.phase ≠ .mgmtEvents true)
    (hs : failStep s = some s') : StopAhead s' ∧ stopRank s' < stopRank s := by
  unfold failStep at hs
  split at hs
  all_goals first
    | (simp at hs; done)
    | contradiction
    | (obtain rfl := Option.some.inj hs
       refine ⟨hstop, stopRank_lt_of_phase rfl rfl (fun _ => ?_) fun _ => ?_⟩)
  all_goals first
    | (simp [*, Phase.rank, Phase.toServe]; done)
    | (rename_i mgmtIn _ _; cases mgmtIn <;> simp [*, Phase.toServe])

theorem helpful_client {s : State} {c : Client} (h : helpful s = .client c) :
    s.phase = .replying c ∧ 0 < s.clients.excess c := by
  unfold helpful at h
  repeat' split at h
  all_goals simp_all

theorem mgmtClient_progress {s s' : State} {a : Mailboxes.Action Client}
    (hs : step s (.mgmtClient a) = some s') : Progress s s' (mover s (.mgmtClient a)) := by
  obtain ⟨clients, hclients, rfl⟩ := Option.map_eq_some_iff.mp hs
  have hmoved : mover s (.mgmtClient a) = some (helpful s) →
      s.phase = .replying a.owner ∧ 0 < s.clients.excess a.owner := by
    intro heq
    simp only [mover] at heq
    split at heq
    · exact helpful_client (Option.some.inj heq).symm
    · simp at heq
  by_cases hphase : ∃ c, s.phase = .replying c
  · obtain ⟨c, hphase⟩ := hphase
    obtain ⟨hle, hlt⟩ := Mailboxes.step_excess hclients c
    rcases Nat.lt_or_eq_of_le hle with hless | heq
    · refine Or.inl (Prod.Lex.toLex_lt_toLex.mpr (Or.inr ⟨rfl, ?_⟩))
      simpa only [replyRank, hphase] using hless
    · refine Or.inr ⟨by simp only [rank, stopRank, replyRank, hphase, heq],
        by simp only [helpful, hphase, heq], ?_⟩
      intro hclient
      obtain ⟨hsame, hpos⟩ := hmoved hclient
      have howner : a.owner = c := by simpa [hphase] using hsame.symm
      exact absurd (hlt howner (howner ▸ hpos)) (by omega)
  · have hsame : ∀ c, s.phase ≠ .replying c := fun c hc => hphase ⟨c, hc⟩
    refine Or.inr ⟨?_, ?_, fun hclient => hsame _ (hmoved hclient).1⟩
    · unfold rank replyRank
      split
      · exact absurd ‹_› (hsame _)
      · rfl
    · cases hp : s.phase with
      | replying c => exact absurd hp (hsame c)
      | _ => simp only [helpful, hp]

theorem step_progress {s s' : State} {a : Action} (hstop : StopAhead s) (hcalm : Undisturbed s a)
    (hs : step s a = some s') : StopAhead s' ∧ Progress s s' (mover s a) := by
  cases a with
  | loop =>
    obtain ⟨hstop', hlt⟩ := loopStep_stop hstop hs
    exact ⟨hstop', .stop _ hlt⟩
  | fail =>
    obtain ⟨hstop', hlt⟩ := failStep_stop hstop (hcalm.received rfl) hs
    exact ⟨hstop', .stop _ hlt⟩
  | sigHandler =>
    obtain rfl := Option.some.inj hs
    refine ⟨Or.inl rfl, ?_⟩
    cases hkeep : s.gKeepRunning with
    | true => exact .stop _ (stopRank_lt_of_stopped hkeep rfl)
    | false =>
      by_cases hphase : s.phase = .polling
      · exact .stop _ (by simp [stopRank, hkeep, hphase, Phase.rank])
      · exact Or.inr ⟨by simp [rank, stopRank, replyRank, hkeep, hphase], by simp [helpful, hphase],
          by simp [mover]⟩
  | udpArrives size =>
    obtain rfl := Option.some.inj hs
    exact ⟨hstop, Or.inr ⟨rfl, rfl, by simp [mover]⟩⟩
  | mgmtArrives c r =>
    obtain rfl := Option.some.inj hs
    rcases hstop with hkeep | ⟨hsock, hmem⟩
    · exact ⟨Or.inl hkeep,
        Or.inr ⟨by simp [rank, stopRank, replyRank, hkeep], rfl, by simp [mover]⟩⟩
    · refine ⟨Or.inr ⟨hsock, by simp [hmem]⟩, Or.inr ⟨?_, rfl, by simp [mover]⟩⟩
      simp only [rank, stopRank, replyRank, List.map_append, List.idxOf_append, if_pos hmem]
  | mgmtClient a =>
    have hprogress := mgmtClient_progress hs
    obtain ⟨clients, -, rfl⟩ := Option.map_eq_some_iff.mp hs
    exact ⟨hstop, hprogress⟩

/-- In every fair run of Collector in which the signal handler does not run between the test of the
flag and `poll`, and no receive at the management socket fails, the loop is left after a signal and
after a `SHUTDOWN` has arrived. -/
theorem loop_ends (r : InfRun step) (hstart : (r.state 0).phase = .test) (hfair : r.Fair mover)
    (hcalm : r.Meets 0 Undisturbed) (n : Nat) (hstop : StopAhead (r.state n)) :
    ∃ m, n ≤ m ∧ (r.state m).phase = .left := by
  have hinv : Wakes (r.state n) ∧ Found (r.state n) := by
    refine r.invariant (I := fun s => Wakes s ∧ Found s)
      (fun s a s' h hc hs => ?_) hcalm ?_ (Nat.zero_le n)
    · exact ⟨step_wakes h.1 hc.window hs, step_found h.2 hs⟩
    · exact ⟨by simp [Wakes, hstart], by simp [hstart, Phase.udpIn], by simp [hstart, Phase.mgmtIn]⟩
  refine InfRun.reaches (I := fun s => (Wakes s ∧ Found s) ∧ StopAhead s)
    (G := fun s => s.phase = .left) rank
    helpful ?_ ?_ r hfair (hcalm.later (Nat.zero_le n)) ⟨hinv, hstop⟩
  · rintro s ⟨⟨hw, hf⟩, hs⟩ hleft
    exact helpful_enabled hw hf hs hleft
  · rintro s a s' ⟨⟨hw, hf⟩, hs⟩ - hc hstep
    obtain ⟨hs', hprogress⟩ := step_progress hs hc hstep
    exact ⟨⟨⟨step_wakes hw hc.window hstep, step_found hf hstep⟩, hs'⟩, hprogress⟩

instance (s : State) (a : Action) : Decidable (Undisturbed s a) :=
  decidable_of_iff (OutsideWindow s a ∧ (a = .fail → s.phase ≠ .mgmtEvents true))
    ⟨fun h => ⟨h.1, h.2⟩, fun h => ⟨h.window, h.received⟩⟩

/-- A `SHUTDOWN` behind another request, with two UDP datagrams. The client has room for one reply,
and reads the first when the second waits for it. -/
def shutdownInTraffic : List Action :=
  [.loop, .udpArrives 5, .mgmtArrives 0 .other, .mgmtArrives 0 .shutdown, .loop, .loop,
    .udpArrives 0] ++
    List.replicate 9 .loop ++ [.mgmtClient (.take 0), .loop, .loop, .mgmtClient (.take 0)]

def leftInTraffic : State := (exec step idle shutdownInTraffic).getD idle

theorem shutdownInTraffic_exec : exec step idle shutdownInTraffic = some leftInTraffic := rfl

theorem leftInTraffic_rests (x : Mover) : ¬ Enabled step mover x leftInTraffic := by
  rintro ⟨a, hmover, hs⟩
  cases a with
  | loop => cases hs
  | mgmtClient a =>
    have hread : ∀ c, leftInTraffic.clients.unread c = 0 := by
      intro c
      cases c <;> rfl
    simp [mover, hread] at hmover
  | _ => simp [mover] at hmover

theorem shutdownInTraffic_ends :
    ∃ m, 4 ≤ m ∧ ((InfRun.ofList shutdownInTraffic_exec).state m).phase = .left :=
  loop_ends (InfRun.ofList shutdownInTraffic_exec) rfl (InfRun.ofList_fair _ leftInTraffic_rests)
    (InfRun.ofList_meets _ rfl (by decide)) 4 (Or.inr ⟨rfl, by decide⟩)

end StudyC.Collector.Loop
