import Mathlib.Data.Prod.Lex
import StudyC.Lib.Fairness
import StudyC.Relay.Pipeline

/-!
# The last datagram arrives

A notification is dropped when the queue is full, and a datagram may be overwritten before the
worker reads it. The last one of a burst gets through all the same: a queue that has no place for
its notification holds others, and the worker takes those after the write.

* `relayStep_due`: the newest datagram is sent, or something that is still to do will send it.
* `last_datagram_shown`: when no more datagrams come, the screen comes to end with the last one.
-/

open Runs StudyC.Shm

namespace StudyC.Relay.Pipeline

inductive Mover where
  | collector
  | worker
  | viewer
  deriving DecidableEq

/-- The datagrams come from outside. -/
def mover (_ : State) : Action → Option Mover
  | .write _ _ => none
  | .notify => some .collector
  | .dequeue | .forward _ _ => some .worker
  | .recv _ _ => some .viewer

/-- `send` takes the whole frame. -/
def AllSent (s : State) : Action → Prop
  | .forward tcpStale result => WholeSends s (.forward tcpStale result) ∧ connected result = true
  | _ => True

def Quiet (_ : State) : Action → Prop
  | .write _ _ => False
  | _ => True

theorem wholeSends_of_allSent {s : State} {a : Action} (h : AllSent s a) : WholeSends s a := by
  cases a with
  | forward tcpStale result => exact h.1
  | _ => trivial

theorem relay_step {N : Nat} {s s' : State} {a : Action} (hinv : Relay.Inv s.relay)
    (hs : step N s a = some s') :
    (s'.relay = s.relay ∧ ∃ stale count, a = .recv stale count) ∨
      ∃ b, Relay.step N s.relay b = some s'.relay ∧ (Quiet s a → ∀ stale d, b ≠ .write stale d) ∧
        (AllSent s a → ∀ stale, b ≠ .forward stale false) := by
  cases a with
  | write stale d =>
    obtain ⟨relay, hrelay, rfl⟩ := Option.map_eq_some_iff.mp hs
    exact Or.inr ⟨_, hrelay, fun h => h.elim, by simp⟩
  | notify | dequeue =>
    obtain ⟨relay, hrelay, rfl⟩ := Option.map_eq_some_iff.mp hs
    exact Or.inr ⟨_, hrelay, by simp, by simp⟩
  | forward tcpStale result =>
    obtain ⟨relay, f, hrelay, -, -, -, hsend⟩ := forward_cases hinv hs
    have hsame : s'.relay = relay := by
      cases result with
      | sent count =>
        simp only [sendFrame, Option.ite_none_right_eq_some, Option.some.injEq] at hsend
        obtain ⟨-, rfl⟩ := hsend
        rfl
      | transientError | broken =>
        obtain rfl := Option.some.inj hsend
        rfl
    refine Or.inr ⟨_, hsame ▸ hrelay, by simp, fun h stale => ?_⟩
    simp [h.2]
  | recv stale count =>
    simp only [step, Option.ite_none_right_eq_some, Option.some.injEq] at hs
    obtain ⟨-, rfl⟩ := hs
    exact Or.inl ⟨rfl, stale, count, rfl⟩

/-! ## What is due -/

/-- The newest datagram was read by the last relay, or there will be another relay. -/
def Due (r : Relay.State) : Prop :=
  r.datagrams ≠ [] → r.collector ≠ none ∨ r.queue ≠ [] ∨ r.worker.held ≠ [] ∨
    ∃ f, r.forwarded.getLast? = some f ∧ f.write + 1 = r.datagrams.length

theorem relayStep_due {N : Nat} (hN : 0 < N) {r r' : Relay.State} {b : Relay.Action}
    (hinv : Relay.Inv r) (h : Due r) (hs : Relay.step N r b = some r') : Due r' := by
  cases moves_of_step hinv hs with
  | ignored => exact h
  | wrote => exact fun _ => .inl (by simp)
  | queued hc => exact fun _ => .inr (.inl (by simp))
  | noPlace hc hfull =>
    -- there are other notifications, since there is no place for this one
    refine fun _ => .inr (.inl fun hq => ?_)
    have hq : r.queue = [] := hq
    simp only [hq, List.length_nil] at hfull
    omega
  | taken hw hq => exact fun _ => .inr (.inr (.inl (by simp [WorkerPhase.held])))
  | relayed hw hi hframe =>
    refine fun _ => .inr (.inr (.inr ⟨_, List.getLast?_concat, ?_⟩))
    exact Nat.sub_add_cancel (Nat.one_le_of_lt hi)

theorem relayStep_stays {N : Nat} {r r' : Relay.State} {b : Relay.Action} (hinv : Relay.Inv r)
    (hb : ∀ stale, b ≠ .forward stale false) (h : r.worker ≠ .left)
    (hs : Relay.step N r b = some r') : r'.worker ≠ .left := by
  cases moves_of_step hinv hs with
  | ignored | wrote | queued | noPlace => exact h
  | taken => simp
  | @relayed tcpStale conn =>
    cases conn with
    | true => simp
    | false => exact absurd rfl (hb tcpStale)

/-- Each step counts: a notification that is still to be queued stands for its place in the queue.
-/
def todo (r : Relay.State) : Nat :=
  3 * r.collector.toList.length + 2 * r.queue.length + r.worker.held.length

theorem relayStep_todo {N : Nat} {r r' : Relay.State} {b : Relay.Action} (hinv : Relay.Inv r)
    (hb : ∀ stale d, b ≠ .write stale d) (hs : Relay.step N r b = some r') :
    todo r' < todo r ∧ r'.datagrams = r.datagrams := by
  cases moves_of_step hinv hs with
  | ignored | wrote => exact absurd rfl (hb _ _)
  | @queued i hc =>
    refine ⟨?_, rfl⟩
    have hqueued : (r.queue ++ [i]).length = r.queue.length + 1 := List.length_append
    simp only [todo, hc, hqueued, Option.toList_some, Option.toList_none, List.length_cons,
      List.length_nil]
    omega
  | noPlace hc hfull =>
    refine ⟨?_, rfl⟩
    simp only [todo, hc, Option.toList_some, Option.toList_none, List.length_cons, List.length_nil]
    omega
  | taken hw hq =>
    refine ⟨?_, rfl⟩
    simp only [todo, hw, hq, WorkerPhase.held, List.length_cons, List.length_nil]
    omega
  | @relayed _ conn i _ hw =>
    refine ⟨?_, rfl⟩
    cases conn <;> simp [todo, hw, WorkerPhase.held]

/-! ## The run -/

structure Delivers (s : State) : Prop where
  whole : Whole s
  due : Due s.relay
  stays : s.relay.worker ≠ .left

theorem step_delivers {N : Nat} (hN : 0 < N) (s : State) (a : Action) (s' : State) (h : Delivers s)
    (hsends : AllSent s a) (hs : step N s a = some s') : Delivers s' := by
  have hwhole := step_whole s a s' h.whole (wholeSends_of_allSent hsends) hs
  obtain ⟨hsame, -⟩ | ⟨b, hb, -, hconn⟩ := relay_step h.whole.inv.relay hs
  · exact ⟨hwhole, hsame ▸ h.due, hsame ▸ h.stays⟩
  · exact ⟨hwhole, relayStep_due hN h.whole.inv.relay h.due hb,
      relayStep_stays h.whole.inv.relay (hconn hsends) h.stays hb⟩

theorem init_delivers (shm : SysV) : Delivers (init shm) :=
  ⟨init_whole shm, fun h => absurd rfl h, by simp [init, Relay.init]⟩

/-- Nothing is on its way. -/
structure Settled (s : State) : Prop where
  collector : s.relay.collector = none
  queue : s.relay.queue = []
  worker : s.relay.worker.held = []
  stream : s.stream = []

def rank (s : State) : Nat ×ₗ Nat := toLex (todo s.relay, s.stream.length)

def helpful (s : State) : Mover :=
  if s.relay.collector ≠ none then .collector
  else if s.relay.queue ≠ [] ∨ s.relay.worker.held ≠ [] then .worker
  else .viewer

theorem step_rank {N : Nat} {s s' : State} {a : Action} (hinv : Relay.Inv s.relay)
    (hquiet : Quiet s a) (hs : step N s a = some s') :
    rank s' < rank s ∧ s'.relay.datagrams = s.relay.datagrams := by
  obtain ⟨hsame, stale, count, rfl⟩ | ⟨b, hb, hwrite, -⟩ := relay_step hinv hs
  · refine ⟨Prod.Lex.toLex_lt_toLex.mpr (Or.inr ⟨by rw [hsame], ?_⟩), by rw [hsame]⟩
    simp only [step, Option.ite_none_right_eq_some, Option.some.injEq] at hs
    obtain ⟨⟨hpos, -, hlen⟩, rfl⟩ := hs
    simp only [List.length_drop]
    omega
  · obtain ⟨hlt, hd⟩ := relayStep_todo hinv (hwrite hquiet) hb
    exact ⟨Prod.Lex.toLex_lt_toLex.mpr (Or.inl hlt), hd⟩

theorem worker_enabled {N : Nat} {s : State} (h : Delivers s)
    (hwork : s.relay.queue ≠ [] ∨ s.relay.worker.held ≠ []) : Enabled (step N) mover .worker s := by
  cases hw : s.relay.worker with
  | atMsgrcv =>
    obtain ⟨i, q, hq⟩ :=
      List.exists_cons_of_ne_nil (hwork.resolve_right (by simp [hw, WorkerPhase.held]))
    exact ⟨.dequeue, rfl, by simp [step, Relay.step, hw, hq]⟩
  | holding i =>
    obtain ⟨-, d, -, hframe⟩ := held_frame h.whole.inv.relay hw (.replicate _ 0)
    refine ⟨.forward (.replicate _ 0) (.sent (frameOf d).length), rfl, ?_⟩
    have hpos : 1 ≤ (frameOf d).length := by
      have hlen : (frameOf d).length = (payloadOf d).length + 13 := frame_length (payloadOf d)
      omega
    rw [forward_step _ hw hframe ⟨hpos, Nat.le_refl _⟩]
    rfl
  | left => exact absurd hw h.stays

theorem helpful_enabled {N : Nat} {s : State} (h : Delivers s) (hsettled : ¬ Settled s) :
    Enabled (step N) mover (helpful s) s := by
  unfold helpful
  split
  · rename_i hc
    obtain ⟨i, hi⟩ := Option.ne_none_iff_exists'.mp hc
    refine ⟨.notify, rfl, ?_⟩
    simp only [step, Relay.step, hi]
    split <;> rfl
  · rename_i hc
    split
    · rename_i hwork
      exact worker_enabled h hwork
    · rename_i hwork
      simp only [ne_eq, not_or, not_not] at hc hwork
      have hstream : 1 ≤ s.stream.length := by
        by_contra hnone
        exact hsettled ⟨hc, hwork.1, hwork.2, List.eq_nil_of_length_eq_zero (by omega)⟩
      exact ⟨.recv (.replicate _ 0) 1, rfl, by simp [step, tcpRecvMax, hstream]⟩

theorem settled_rests {N : Nat} {s : State} (h : Settled s) {a : Action} (hquiet : Quiet s a) :
    step N s a = none := by
  cases a with
  | write stale d => exact hquiet.elim
  | notify => simp [step, Relay.step, h.collector]
  | dequeue => simp [step, Relay.step, h.queue]
  | forward tcpStale result =>
    have hw := h.worker
    cases hp : s.relay.worker with
    | holding i => simp [hp, WorkerPhase.held] at hw
    | atMsgrcv | left => simp [step, Relay.step, hp]
  | recv stale count =>
    simp only [step, h.stream, List.length_nil]
    rw [if_neg (by omega)]

theorem settled_shown {s : State} (h : Delivers s) (hsettled : Settled s) {d : List UInt8}
    (hlast : s.relay.datagrams.getLast? = some d) : frameOf d <:+ s.screen.flatten := by
  obtain ⟨f, hf, hwrite⟩ : ∃ f, s.relay.forwarded.getLast? = some f ∧
      f.write + 1 = s.relay.datagrams.length := by
    obtain hc | hq | hw | hf := h.due (by rintro hnil; simp [hnil] at hlast)
    · exact absurd hsettled.collector hc
    · exact absurd hsettled.queue hq
    · exact absurd hsettled.worker hw
    · exact hf
  -- the last relay was sent whole, and it is the last text of the screen
  rw [← h.whole.all h.stays, List.getLast?_map, Option.map_eq_some_iff] at hf
  obtain ⟨g, hg, rfl⟩ := hf
  obtain ⟨before, hsent⟩ := List.getLast?_eq_some_iff.mp hg
  have hd : s.relay.datagrams.getD g.1.write [] = d := by
    rw [List.getLast?_eq_getElem?, ← hwrite, Nat.add_sub_cancel] at hlast
    rw [List.getD_eq_getElem?_getD, hlast, Option.getD_some]
  have htext := h.whole.text
  rw [hsettled.stream, List.append_nil, hsent, List.flatMap_append, List.flatMap_singleton,
    hd] at htext
  exact ⟨_, htext.symm⟩

/-- When no more datagrams come, the screen comes to end with the last one and stays so, whether or
not its notification found a place in the queue. -/
theorem last_datagram_shown {N : Nat} (hN : 0 < N) {shm : SysV} (r : InfRun (step N))
    (hinit : r.state 0 = init shm) (hfair : r.Fair mover) (hsends : r.Meets 0 AllSent) {n : Nat}
    (hquiet : r.Meets n Quiet) {d : List UInt8}
    (hlast : (r.state n).relay.datagrams.getLast? = some d) :
    ∃ m, n ≤ m ∧ ∀ k, m ≤ k → frameOf d <:+ (r.state k).screen.flatten := by
  have hinv : ∀ k, Delivers (r.state k) := fun k =>
    r.invariant (step_delivers hN) hsends (hinit ▸ init_delivers shm) (Nat.zero_le k)
  have hkept : ∀ k, n ≤ k → (r.state k).relay.datagrams.getLast? = some d := by
    intro k hk
    induction k, hk using Nat.le_induction with
    | base => exact hlast
    | succ k hk ih =>
      cases ha : r.act k with
      | none => rwa [r.rest k ha]
      | some a => rwa [(step_rank (hinv k).whole.inv.relay (hquiet k a hk ha) (r.move k a ha)).2]
  have hboth : r.Meets n fun s a => AllSent s a ∧ Quiet s a :=
    fun k a hk ha => ⟨hsends k a (Nat.zero_le k) ha, hquiet k a hk ha⟩
  obtain ⟨m, hm, hsettled⟩ : ∃ m, n ≤ m ∧ Settled (r.state m) := by
    refine InfRun.reaches rank helpful (fun s => helpful_enabled) ?_ r hfair hboth (hinv n)
    intro s a s' h _ hPa hs
    exact ⟨step_delivers hN s a s' h hPa.1 hs, Or.inl (step_rank h.whole.inv.relay hPa.2 hs).1⟩
  refine ⟨m, hm, fun k hk => settled_shown (hinv k) ?_ (hkept k (Nat.le_trans hm hk))⟩
  refine r.invariant (I := Settled) ?_ (hquiet.later hm) hsettled hk
  intro s a s' h hq hs
  rw [settled_rests h hq] at hs
  simp at hs

/-- The second datagram comes before the first notification is taken, and its own finds the queue
full. -/
def dropped : List Action :=
  [.write (.replicate _ 0) [97], .notify, .write (.replicate _ 0) [98], .notify, .dequeue,
    .forward (.replicate _ 0) (.sent 14), .recv (.replicate _ 0) 14]

theorem dropped_shown :
    ∃ s, ∃ h : exec (step 1) (init (.zero _)) dropped = some s, s.relay.enqueued = [0] ∧
      ∃ m, 4 ≤ m ∧ ∀ k, m ≤ k → frameOf [98] <:+ ((InfRun.ofList h).state k).screen.flatten := by
  have hcarries := fun shm => handleUdpRead_carries (d := [98]) (by decide) shm (.replicate _ 0)
  have hframe := fun shm => relayFrame_of_carries (hcarries shm).2 (.replicate _ 0)
  have hfirst := fun shm => (handleUdpRead_carries (d := [97]) (by decide) shm (.replicate _ 0)).1
  have hlen : (frameOf [98]).length = 14 := by decide
  have hsends : Along (step 1) AllSent (init (.zero _)) dropped := by
    simp [Along, dropped, AllSent, WholeSends, connected, step, init, Relay.step, Relay.init,
      hfirst, (hcarries _).1, hframe, hlen]
  obtain ⟨u, hu, hlast, hrest⟩ : ∃ u, exec (step 1) (init (.zero _)) (dropped.take 4) = some u ∧
      u.relay.datagrams.getLast? = some [98] ∧ ∃ s, exec (step 1) u (dropped.drop 4) = some s ∧
      Settled s ∧
        s.relay.enqueued = [0] := by
    refine ⟨_, exec_cons.mpr ⟨_, write_step (by decide) _ rfl, exec_cons.mpr ⟨_, rfl,
      exec_cons.mpr ⟨_, write_step (by decide) _ rfl, exec_cons.mpr ⟨_, rfl, rfl⟩⟩⟩⟩, rfl, ?_⟩
    exact ⟨_, exec_cons.mpr ⟨_, rfl, exec_cons.mpr ⟨_, forward_step _ rfl (hframe _) (by decide),
      exec_cons.mpr ⟨_, rfl, rfl⟩⟩⟩, ⟨rfl, rfl, rfl, rfl⟩, rfl⟩
  obtain ⟨s, hs, hsettled, henqueued⟩ := hrest
  have hrun : exec (step 1) (init (.zero _)) dropped = some s := by
    rw [← List.take_append_drop 4 dropped, exec_append, hu]
    exact hs
  refine ⟨s, hrun, henqueued, last_datagram_shown (by decide) (InfRun.ofList hrun) rfl ?_ ?_ ?_ ?_⟩
  · apply InfRun.ofList_fair
    rintro x ⟨a, hmover, ha⟩
    rw [settled_rests hsettled (by cases a <;> simp [mover] at hmover <;> trivial)] at ha
    simp at ha
  · exact InfRun.ofList_meets hrun rfl hsends
  · exact InfRun.ofList_meets hrun hu (by simp [dropped, Along, Quiet])
  · rw [InfRun.ofList_state hrun hu]
    exact hlast

end StudyC.Relay.Pipeline
