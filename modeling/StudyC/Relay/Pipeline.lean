import StudyC.Relay.Framing
import StudyC.Relay.Handoff

/-!
# The data plane as a whole

The Collector, the shared memory, the notification queue and the worker of `Handoff`, followed by
the TCP connection and the Viewer, which prints whatever one `recv` returns. A `send` may take only
a part of a frame, fail for once, or find the connection broken.

* `step_inv`: what is printed and what is still on its way are the parts that the sends took, in
  order.
* `screen_follows`: with whole sends the screen shows whole frames, in the order of the datagrams,
  and ends with one that is no older than the last notification.
-/

open CString Runs StudyC.Shm

namespace StudyC.Relay.Pipeline

open Framing (SendResult)

structure State where
  relay : Relay.State
  /-- The bytes between `send` and `recv`. -/
  stream : List UInt8
  /-- What the Viewer has printed, between the rulers. -/
  screen : List (List UInt8)
  /-- The relays of which a `send` took something, and how much. -/
  sent : List (Forwarded × Nat)

inductive Action where
  | write (stale : UdpBuffer) (datagram : List UInt8)
  | notify
  | dequeue
  | forward (tcpStale : Vector UInt8 tcpBufSize) (result : SendResult)
  | recv (stale : Vector UInt8 (tcpRecvMax + 1)) (count : Nat)

def connected : SendResult → Bool
  | .broken => false
  | .sent _ | .transientError => true

/-- The worker's side of a `send`, once the frame is made. -/
def sendFrame (s : State) (relay : Relay.State) (f : Forwarded) : SendResult → Option State
  | .sent count =>
    if 1 ≤ count ∧ count ≤ f.frame.length then
      some { s with
        relay := relay, stream := s.stream ++ f.frame.take count, sent := s.sent ++ [(f, count)] }
    else none
  | .transientError | .broken => some { s with relay := relay }

def step (N : Nat) (s : State) : Action → Option State
  | .write stale d =>
    (Relay.step N s.relay (.write stale d)).map fun relay => { s with relay := relay }
  | .notify => (Relay.step N s.relay .notify).map fun relay => { s with relay := relay }
  | .dequeue => (Relay.step N s.relay .dequeue).map fun relay => { s with relay := relay }
  | .forward tcpStale result =>
    (Relay.step N s.relay (.forward tcpStale (connected result))).bind fun relay =>
      -- the relay that this step has added, unless the read failed
      match relay.forwarded[s.relay.forwarded.length]? with
      | some f => sendFrame s relay f result
      | none => some { s with relay := relay }
  | .recv stale count =>
    if 1 ≤ count ∧ count ≤ tcpRecvMax ∧ count ≤ s.stream.length then
      some { s with
        stream := s.stream.drop count
        screen := s.screen ++ [printedBody stale (s.stream.take count)] }
    else none

def init (shm : SysV) : State := ⟨Relay.init shm, [], [], []⟩

/-- `send` takes the whole frame, or finds the connection broken. -/
def WholeSends (s : State) : Action → Prop
  | .forward tcpStale result => ∀ f, relayFrame true s.relay.shm tcpStale = some f →
    match result with
    | .sent count => count = f.length
    | .transientError => False
    | .broken => True
  | _ => True

/-! ## What a step of `Handoff` does -/

inductive Moves (N : Nat) (r : Relay.State) : Relay.Action → Relay.State → Prop where
  | ignored {stale : UdpBuffer} {d : List UInt8} : Moves N r (.write stale d) r
  | wrote {stale : UdpBuffer} {d : List UInt8} {shm : SysV} : Moves N r (.write stale d)
      { r with shm := shm, collector := some r.datagrams.length, datagrams := r.datagrams ++ [d] }
  | queued {i : Nat} (hc : r.collector = some i) : Moves N r .notify
      { r with queue := r.queue ++ [i], collector := none, enqueued := r.enqueued ++ [i] }
  | noPlace {i : Nat} (hc : r.collector = some i) (hfull : N ≤ r.queue.length) : Moves N r .notify
      { r with collector := none }
  | taken {i : Nat} {q : List Nat} (hw : r.worker = .atMsgrcv) (hq : r.queue = i :: q) :
      Moves N r .dequeue
      { r with queue := q, worker := .holding i, dequeued := r.dequeued ++ [i] }
  | relayed {tcpStale : Vector UInt8 tcpBufSize} {conn : Bool} {i : Nat} {d : List UInt8}
      (hw : r.worker = .holding i)
      (hi : i < r.datagrams.length) (hframe : relayFrame true r.shm tcpStale = some (frameOf d)) :
      Moves N r (.forward tcpStale conn) { r with
        worker := if conn then .atMsgrcv else .left
        forwarded := r.forwarded ++ [⟨i, r.datagrams.length - 1, frameOf d⟩] }

theorem moves_of_step {N : Nat} {r r' : Relay.State} {a : Relay.Action} (hinv : Relay.Inv r)
    (hs : Relay.step N r a = some r') : Moves N r a r' := by
  cases a with
  | write stale d =>
    simp only [Relay.step] at hs
    split at hs
    · split at hs <;> obtain rfl := Option.some.inj hs
      · exact .wrote
      · exact .ignored
    · simp at hs
  | notify =>
    simp only [Relay.step] at hs
    split at hs
    · rename_i i hc
      split at hs <;> obtain rfl := Option.some.inj hs
      · exact .queued hc
      · exact .noPlace hc (by omega)
    · simp at hs
  | dequeue =>
    simp only [Relay.step] at hs
    split at hs
    · rename_i i q hw hq
      obtain rfl := Option.some.inj hs
      exact .taken hw hq
    · simp at hs
  | forward tcpStale conn =>
    simp only [Relay.step] at hs
    split at hs
    · rename_i i hw
      -- the read does not fail, since something was written before the notification
      obtain ⟨hi, d, -, hframe⟩ := held_frame hinv hw tcpStale
      rw [hframe] at hs
      obtain rfl := Option.some.inj hs
      exact .relayed hw hi hframe
    · simp at hs

/-! ## One relay -/

theorem forward_cases {N : Nat} {s : State} {tcpStale : Vector UInt8 tcpBufSize}
    {result : SendResult} {s' : State} (hinv : Relay.Inv s.relay)
    (hs : step N s (.forward tcpStale result) = some s') :
    ∃ relay f, Relay.step N s.relay (.forward tcpStale (connected result)) = some relay ∧
      relay.forwarded = s.relay.forwarded ++ [f] ∧
        relay.worker = (if connected result then .atMsgrcv else .left) ∧
      relayFrame true s.relay.shm tcpStale = some f.frame ∧ sendFrame s relay f result =
        some s' := by
  simp only [step] at hs
  obtain ⟨relay, hrelay, hs⟩ := Option.bind_eq_some_iff.mp hs
  refine ⟨relay, ?_⟩
  cases moves_of_step hinv hrelay with
  | relayed hw hi hframe =>
    refine ⟨_, hrelay, rfl, rfl, hframe, ?_⟩
    simpa using hs

/-! ## The invariant -/

def taken (g : Forwarded × Nat) : List UInt8 := g.1.frame.take g.2

structure Inv (s : State) : Prop where
  relay : Relay.Inv s.relay
  relays : (s.sent.map Prod.fst).Sublist s.relay.forwarded
  text : s.screen.flatten ++ s.stream = s.sent.flatMap taken
  nonul : ∀ b ∈ s.stream, b ≠ 0

theorem relay_frame {N : Nat} {r r' : Relay.State} {a : Relay.Action} (hinv : Relay.Inv r)
    (ha : ∀ stale conn, a ≠ .forward stale conn) (hs : Relay.step N r a = some r') :
    r'.forwarded = r.forwarded ∧ (r.worker = .left → r'.worker = .left) := by
  cases moves_of_step hinv hs with
  | ignored | wrote | queued | noPlace => exact ⟨rfl, id⟩
  | taken hw => exact ⟨rfl, by simp [hw]⟩
  | relayed => exact absurd rfl (ha _ _)

theorem Inv.setRelay {N : Nat} {s : State} (h : Inv s) {a : Relay.Action} {relay : Relay.State}
    (ha : ∀ stale conn, a ≠ .forward stale conn) (hs : Relay.step N s.relay a = some relay) :
    Inv { s with relay := relay } :=
  ⟨Relay.step_inv s.relay a relay h.relay hs, by rw [(relay_frame h.relay ha hs).1]; exact h.relays,
    h.text, h.nonul⟩

theorem Inv.sendFrame {s s' : State} (h : Inv s) {relay : Relay.State} {f : Forwarded}
    {result : SendResult} (hrelay : Relay.Inv relay)
    (hforwarded : relay.forwarded = s.relay.forwarded ++ [f])
    (hs : sendFrame s relay f result = some s') : Inv s' := by
  have hsub : (s.sent.map Prod.fst).Sublist relay.forwarded := by
    rw [hforwarded]
    exact h.relays.trans (List.sublist_append_left _ _)
  cases result with
  | sent count =>
    simp only [Pipeline.sendFrame, Option.ite_none_right_eq_some, Option.some.injEq] at hs
    obtain ⟨-, rfl⟩ := hs
    obtain ⟨-, d, -, hframe⟩ := hrelay.fresh f (by simp [hforwarded])
    refine ⟨hrelay, ?_, ?_, ?_⟩
    · rw [List.map_append, hforwarded]
      exact h.relays.append (List.Sublist.refl [f])
    · rw [← List.append_assoc, h.text, List.flatMap_append]
      simp [taken]
    · intro b hb
      rcases List.mem_append.mp hb with hb | hb
      · exact h.nonul b hb
      · rw [hframe] at hb
        exact frame_nonul (cstr_nonul _) b (List.mem_of_mem_take hb)
  | transientError | broken =>
    obtain rfl := Option.some.inj hs
    exact ⟨hrelay, hsub, h.text, h.nonul⟩

theorem recv_inv {N : Nat} {s s' : State} (h : Inv s) {stale : Vector UInt8 (tcpRecvMax + 1)}
    {count : Nat} (hs : step N s (.recv stale count) = some s') : Inv s' := by
  simp only [step, Option.ite_none_right_eq_some, Option.some.injEq] at hs
  obtain ⟨⟨-, hmax, -⟩, rfl⟩ := hs
  refine ⟨h.relay, h.relays, ?_, fun b hb => h.nonul b (List.mem_of_mem_drop hb)⟩
  -- a chunk without NULs is printed as it is
  have hchunk : printedBody stale (s.stream.take count) = s.stream.take count :=
    printedBody_eq (Nat.le_trans (List.length_take_le _ _) hmax)
      (fun b hb => h.nonul b (List.mem_of_mem_take hb)) stale
  rw [List.flatten_append, List.flatten_singleton, hchunk, List.append_assoc, List.take_append_drop]
  exact h.text

theorem step_inv {N : Nat} (s : State) (a : Action) (s' : State) (h : Inv s)
    (hs : step N s a = some s') : Inv s' := by
  cases a with
  | write stale d =>
    obtain ⟨relay, hrelay, rfl⟩ := Option.map_eq_some_iff.mp hs
    exact h.setRelay (by simp) hrelay
  | notify =>
    obtain ⟨relay, hrelay, rfl⟩ := Option.map_eq_some_iff.mp hs
    exact h.setRelay (by simp) hrelay
  | dequeue =>
    obtain ⟨relay, hrelay, rfl⟩ := Option.map_eq_some_iff.mp hs
    exact h.setRelay (by simp) hrelay
  | forward tcpStale result =>
    obtain ⟨relay, f, hrelay, hforwarded, -, -, hsend⟩ := forward_cases h.relay hs
    exact h.sendFrame (Relay.step_inv _ _ _ h.relay hrelay) hforwarded hsend
  | recv stale count => exact recv_inv h hs

/-! ## Whole sends -/

structure Whole (s : State) : Prop where
  inv : Inv s
  full : ∀ g ∈ s.sent, g.2 = g.1.frame.length
  /-- Only the relay that found the connection broken is missing. -/
  all : s.relay.worker ≠ .left → s.sent.map Prod.fst = s.relay.forwarded

theorem Whole.setRelay {N : Nat} {s : State} (h : Whole s) {a : Relay.Action} {relay : Relay.State}
    (ha : ∀ stale conn, a ≠ .forward stale conn) (hs : Relay.step N s.relay a = some relay) :
    Whole { s with relay := relay } := by
  obtain ⟨hforwarded, hleft⟩ := relay_frame h.inv.relay ha hs
  refine ⟨h.inv.setRelay ha hs, h.full, fun hw => ?_⟩
  rw [hforwarded]
  exact h.all fun hl => hw (hleft hl)

theorem forward_whole {N : Nat} {s s' : State} (h : Whole s) {tcpStale : Vector UInt8 tcpBufSize}
    {result : SendResult} (hwhole : WholeSends s (.forward tcpStale result))
    (hs : step N s (.forward tcpStale result) = some s') : Whole s' := by
  have hinv := step_inv s _ s' h.inv hs
  obtain ⟨relay, f, hrelay, hforwarded, hworker, hframe, hsend⟩ := forward_cases h.inv.relay hs
  have hholds : s.relay.worker ≠ .left := by
    intro hl
    simp [Relay.step, hl] at hrelay
  cases result with
  | sent count =>
    obtain rfl : count = f.frame.length := hwhole f.frame hframe
    simp only [Pipeline.sendFrame, Option.ite_none_right_eq_some, Option.some.injEq] at hsend
    obtain ⟨-, rfl⟩ := hsend
    refine ⟨hinv, ?_, ?_⟩
    · intro g hg
      rcases List.mem_append.mp hg with hg | hg
      · exact h.full g hg
      · rw [List.mem_singleton.mp hg]
    · intro _
      rw [List.map_append, h.all hholds, hforwarded]
      rfl
  | transientError => exact (hwhole f.frame hframe).elim
  | broken =>
    obtain rfl := Option.some.inj hsend
    exact ⟨hinv, h.full, fun hw => absurd hworker hw⟩

theorem step_whole {N : Nat} (s : State) (a : Action) (s' : State) (h : Whole s)
    (hwhole : WholeSends s a) (hs : step N s a = some s') : Whole s' := by
  cases a with
  | write stale d =>
    obtain ⟨relay, hrelay, rfl⟩ := Option.map_eq_some_iff.mp hs
    exact h.setRelay (by simp) hrelay
  | notify =>
    obtain ⟨relay, hrelay, rfl⟩ := Option.map_eq_some_iff.mp hs
    exact h.setRelay (by simp) hrelay
  | dequeue =>
    obtain ⟨relay, hrelay, rfl⟩ := Option.map_eq_some_iff.mp hs
    exact h.setRelay (by simp) hrelay
  | forward tcpStale result => exact forward_whole h hwhole hs
  | recv stale count =>
    have hinv := recv_inv h.inv hs
    simp only [step, Option.ite_none_right_eq_some, Option.some.injEq] at hs
    obtain ⟨-, rfl⟩ := hs
    exact ⟨hinv, h.full, h.all⟩

theorem init_whole (shm : SysV) : Whole (init shm) := by
  refine ⟨⟨?_, ?_, rfl, by simp [init]⟩, by simp [init], fun _ => rfl⟩
  · exact ⟨by simp [init, Relay.init], by simp [init, Relay.init], by simp [init, Relay.init],
      by simp [init, Relay.init], by simp [init, Relay.init], by simp [init, Relay.init], rfl, rfl⟩
  · exact List.Sublist.refl []

theorem Whole.text {s : State} (h : Whole s) :
    s.screen.flatten ++ s.stream = s.sent.flatMap fun g =>
      frameOf (s.relay.datagrams.getD g.1.write []) := by
  rw [h.inv.text, List.flatMap_def, List.flatMap_def]
  congr 1
  apply List.map_congr_left
  intro g hg
  obtain ⟨-, d, hd, hframe⟩ := h.inv.relay.fresh g.1 (h.inv.relays.subset (List.mem_map_of_mem hg))
  rw [taken, h.full g hg, List.take_length, hframe, List.getD_eq_getElem?_getD, hd,
    Option.getD_some]

/-- With whole sends the screen shows whole frames in the order of the datagrams, one for each
notification taken, and when nothing is left to do it ends with a datagram that is no older than the
last notification. -/
theorem screen_follows (N : Nat) (shm : SysV) (as : List Action) (s : State)
    (hwhole : Along (step N) WholeSends (init shm) as)
    (hrun : exec (step N) (init shm) as = some s) :
    ∃ shown : List Nat, shown.Pairwise (· ≤ ·) ∧ (∀ i ∈ shown, i < s.relay.datagrams.length) ∧
      s.screen.flatten ++ s.stream =
        (shown.map fun i => frameOf (s.relay.datagrams.getD i [])).flatten ∧
      (s.relay.worker = .atMsgrcv → shown.length = s.relay.dequeued.length) ∧
      (s.relay.worker = .atMsgrcv → s.relay.queue = [] → ∀ k, s.relay.enqueued.getLast? = some k →
        ∃ i, shown.getLast? = some i ∧ k ≤ i) := by
  have h : Whole s := invariant step_whole (init_whole shm) hwhole hrun
  have hok : HandoffOk s.relay := handoffOk_of_inv h.inv.relay
  have hshown : s.sent.map (fun g => g.1.write) = (s.sent.map Prod.fst).map Forwarded.write := by
    rw [List.map_map]
    rfl
  refine ⟨s.sent.map fun g => g.1.write, ?_, ?_, ?_, ?_, ?_⟩
  · rw [hshown]
    exact hok.ordered.sublist (h.inv.relays.map _)
  · intro i hi
    obtain ⟨g, hg, rfl⟩ := List.mem_map.mp hi
    exact h.inv.relay.written g.1 (h.inv.relays.subset (List.mem_map_of_mem hg))
  · rw [h.text, List.map_map, List.flatMap_def]
    rfl
  · intro hw
    rw [hok.reads, ← h.all (by simp [hw]), hw]
    simp [WorkerPhase.held]
  · intro hw hq k hk
    obtain ⟨f, hf, hle⟩ := hok.newest hq (by rw [hw]; rfl) k hk
    refine ⟨f.write, ?_, hle⟩
    rw [hshown, h.all (by simp [hw]), List.getLast?_map, hf]
    rfl

/-! ## A run -/

theorem write_step {N : Nat} {s : State} {d : List UInt8} (hd : 1 ≤ d.length) (stale : UdpBuffer)
    (hc : s.relay.collector = none) :
    step N s (.write stale d) = some { s with
      relay := { s.relay with
        shm := (handleUdpRead true s.relay.shm stale d).2
        collector := some s.relay.datagrams.length
        datagrams := s.relay.datagrams ++ [d] } } := by
  have hret := (handleUdpRead_carries hd s.relay.shm stale).1
  simp [step, Relay.step, hc, hret]

theorem forward_step {N : Nat} {s : State} {i count : Nat} {f : List UInt8}
    (tcpStale : Vector UInt8 tcpBufSize) (hw : s.relay.worker = .holding i)
    (hframe : relayFrame true s.relay.shm tcpStale = some f)
    (hcount : 1 ≤ count ∧ count ≤ f.length) :
    step N s (.forward tcpStale (.sent count)) = some { s with
      relay := { s.relay with
        worker := .atMsgrcv
        forwarded := s.relay.forwarded ++ [⟨i, s.relay.datagrams.length - 1, f⟩] }
      stream := s.stream ++ f.take count
      sent := s.sent ++ [(⟨i, s.relay.datagrams.length - 1, f⟩, count)] } := by
  simp [step, Relay.step, hw, hframe, connected, sendFrame, hcount]

/-- The second datagram is written before the first notification is taken. -/
def overtaken : List Action :=
  [.write (.replicate _ 0) [97], .notify, .write (.replicate _ 0) [98], .dequeue,
    .forward (.replicate _ 0) (.sent 14)]

theorem overtaken_shown :
    ∃ s, exec (step 1) (init (.zero _)) overtaken = some s ∧
      ∃ shown : List Nat, shown.Pairwise (· ≤ ·) ∧ (∀ i ∈ shown, i < s.relay.datagrams.length) ∧
        s.screen.flatten ++ s.stream =
          (shown.map fun i => frameOf (s.relay.datagrams.getD i [])).flatten ∧
        (s.relay.worker = .atMsgrcv → shown.length = s.relay.dequeued.length) ∧
        (s.relay.worker = .atMsgrcv → s.relay.queue = [] → ∀ k, s.relay.enqueued.getLast? = some k →
          ∃ i, shown.getLast? = some i ∧ k ≤ i) := by
  have hcarries := fun shm => handleUdpRead_carries (d := [98]) (by decide) shm (.replicate _ 0)
  have hframe := fun shm => relayFrame_of_carries (hcarries shm).2 (.replicate _ 0)
  have hfirst := fun shm => (handleUdpRead_carries (d := [97]) (by decide) shm (.replicate _ 0)).1
  have hwhole : Along (step 1) WholeSends (init (.zero _)) overtaken := by
    have hlen : (frameOf [98]).length = 14 := by decide
    simp [Along, overtaken, WholeSends, step, init, Relay.step, Relay.init, hfirst, (hcarries _).1,
      hframe, hlen]
  obtain ⟨s, hrun⟩ : ∃ s, exec (step 1) (init (.zero _)) overtaken = some s :=
    ⟨_, exec_cons.mpr ⟨_, write_step (by decide) _ rfl, exec_cons.mpr ⟨_, rfl,
      exec_cons.mpr ⟨_, write_step (by decide) _ rfl, exec_cons.mpr ⟨_, rfl,
        exec_cons.mpr ⟨_, forward_step _ rfl (hframe _) (by decide), rfl⟩⟩⟩⟩⟩⟩
  exact ⟨s, hrun, screen_follows 1 (.zero _) overtaken s hwhole hrun⟩

end StudyC.Relay.Pipeline
