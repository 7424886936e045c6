import StudyC.Relay.Frame
import StudyC.Lib.Runs

/-!
# Frames on the TCP connection

The loop of `router_worker` hands each frame to one `send` and looks only at the sign of its result.
A stream socket may take less than it is given.
-/

open CString Runs StudyC.Shm

namespace StudyC.Relay.Framing

/-- What `send` may do with a frame. -/
inductive SendResult where
  | sent (count : Nat)
  | transientError
  /-- `EPIPE` or `ECONNRESET`. -/
  | broken

/-- A return of `msgrcv`, and for a notification what the calls after it find. -/
inductive Event where
  | failed
  | quit
  | notified (locked : Bool) (shm : SysV) (tcpStale : Vector UInt8 tcpBufSize) (result : SendResult)

/-- The part of a frame that one `send` took. -/
structure Segment where
  frame : List UInt8
  count : Nat

structure Worker where
  running : Bool
  segments : List Segment

def start : Worker := ⟨true, []⟩

def step (s : Worker) (e : Event) : Option Worker :=
  if s.running then
    match e with
    | .failed => some s
    | .quit => some { s with running := false }
    | .notified locked shm tcpStale result =>
      match relayFrame locked shm tcpStale with
      | none => some s
      | some frame =>
        match result with
        -- a positive result is taken for the whole frame
        | .sent count =>
          if 1 ≤ count ∧ count ≤ frame.length then
            some { s with segments := s.segments ++ [⟨frame, count⟩] }
          else none
        | .transientError => some s
        | .broken => some { s with running := false }
  else none

def Segment.bytes (g : Segment) : List UInt8 := g.frame.take g.count

/-- The bytes on the connection. -/
def stream (segments : List Segment) : List UInt8 := segments.flatMap Segment.bytes

/-- Complete frames, and at most one more that may be cut. -/
def Framed (segments : List Segment) : Prop :=
  ∃ (payloads : List (List UInt8)) (last : Option Segment),
    segments = (payloads.map fun p => ⟨frame p, (frame p).length⟩) ++ last.toList ∧
      ∀ g ∈ last, ∃ p, g.frame = frame p

/-- Complete frames, and the beginning of one more. -/
def FramedBytes (bytes : List UInt8) : Prop :=
  ∃ (payloads : List (List UInt8)) (rest : List UInt8),
    bytes = (payloads.map frame).flatten ++ rest ∧
    ∃ payload, rest <+: frame payload

/-- What the event puts on the connection of a worker that is running. -/
def Event.segment : Event → Option Segment
  | .notified locked shm tcpStale (.sent count) => (relayFrame locked shm tcpStale).map (⟨·, count⟩)
  | _ => none

def Event.Short (e : Event) : Prop := ∃ g, e.segment = some g ∧ g.count < g.frame.length

def Event.Puts (e : Event) : Prop := e.segment.isSome

/-! ## Segments -/

theorem segment_frame {e : Event} {g : Segment} (h : e.segment = some g) :
    ∃ payload, g.frame = frame payload := by
  unfold Event.segment at h
  split at h
  · rw [relayFrame_eq] at h
    dsimp only at h
    split at h
    · rw [Option.map_map] at h
      obtain ⟨payload, -, rfl⟩ := Option.map_eq_some_iff.mp h
      exact ⟨_, rfl⟩
    · simp at h
  · simp at h

theorem Framed.stream {segments : List Segment} (h : Framed segments) :
    FramedBytes (Framing.stream segments) := by
  obtain ⟨payloads, last, rfl, hlast⟩ := h
  have hcomplete : Framing.stream (payloads.map fun p => ⟨frame p, (frame p).length⟩) =
      (payloads.map frame).flatten := by
    simp [Framing.stream, Segment.bytes, List.flatMap_def, Function.comp_def]
  cases last with
  | none => exact ⟨payloads, [], by simpa using hcomplete, [], List.nil_prefix⟩
  | some g =>
    obtain ⟨p, hp⟩ := hlast g rfl
    refine ⟨payloads, g.bytes, ?_, p, ?_⟩
    · rw [← hcomplete]
      simp [Framing.stream]
    · rw [Segment.bytes, hp]
      exact List.take_prefix _ _

theorem FramedBytes.take_head {bytes : List UInt8} (h : FramedBytes bytes) {n : Nat} (hn : n ≤ 12)
    (hlen : n ≤ bytes.length) : bytes.take n = (ascii "[TCP-RELAY] ").take n := by
  -- every frame begins in the same way
  have hhead : (ascii "[TCP-RELAY] ").length = 12 := by decide
  have htake : ∀ p : List UInt8, (frame p).take n = (ascii "[TCP-RELAY] ").take n := by
    intro p
    rw [frame, List.append_assoc, List.take_append_of_le_length (by omega)]
  obtain ⟨payloads, rest, rfl, payload, hrest⟩ := h
  cases payloads with
  | nil =>
    rw [List.map_nil, List.flatten_nil, List.nil_append] at hlen ⊢
    rw [List.prefix_iff_eq_take.mp hrest, List.take_take, Nat.min_eq_left hlen, htake]
  | cons p payloads =>
    have hframe : n ≤ (frame p).length := by
      rw [frame_length]
      omega
    rw [List.map_cons, List.flatten_cons, List.append_assoc,
      List.take_append_of_le_length hframe, htake]

theorem framed_iff_pairwise {segments : List Segment}
    (hframe : ∀ g ∈ segments, ∃ payload, g.frame = frame payload) :
    Framed segments ↔ segments.Pairwise fun g _ => g.count = g.frame.length := by
  induction segments with
  | nil => exact iff_of_true ⟨[], none, rfl, by simp⟩ .nil
  | cons g rest ih =>
    obtain ⟨⟨payload, hpayload⟩, hrest⟩ := List.forall_mem_cons.mp hframe
    rw [List.pairwise_cons, ← ih hrest]
    constructor
    · rintro ⟨payloads, last, heq, hlast⟩
      cases payloads with
      | nil =>
        have hnil : rest = [] := by
          cases last with
          | none => simp at heq
          | some g' => simpa using (List.cons.inj heq).2
        subst hnil
        exact ⟨by simp, [], none, rfl, by simp⟩
      | cons p payloads =>
        obtain ⟨rfl, rfl⟩ := List.cons.inj heq
        exact ⟨fun _ _ => rfl, payloads, last, rfl, hlast⟩
    · rintro ⟨hg, payloads, last, rfl, hlast⟩
      by_cases hempty : (payloads.map fun p => ⟨frame p, (frame p).length⟩) ++ last.toList =
        ([] : List Segment)
      · exact ⟨[], some g, by simp [hempty], by simpa using ⟨payload, hpayload⟩⟩
      · obtain ⟨g', hg'⟩ := List.exists_mem_of_ne_nil _ hempty
        have hcount : g = ⟨frame payload, (frame payload).length⟩ := by
          rw [← hpayload, ← hg g' hg']
        exact ⟨payload :: payloads, last, by rw [hcount]; rfl, hlast⟩

/-! ## Runs -/

theorem step_segments {s t : Worker} {e : Event} (h : step s e = some t) :
    t.segments = s.segments ++ e.segment.toList ∧ ∀ g ∈ e.segment, g.count ≤ g.frame.length := by
  unfold step at h
  split at h
  · cases e with
    | failed =>
      obtain rfl := Option.some.inj h
      simp [Event.segment]
    | quit =>
      obtain rfl := Option.some.inj h
      simp [Event.segment]
    | notified locked shm tcpStale result =>
      dsimp only at h
      cases hframe : relayFrame locked shm tcpStale with
      | none =>
        rw [hframe] at h
        obtain rfl := Option.some.inj h
        cases result <;> simp [Event.segment, hframe]
      | some f =>
        rw [hframe] at h
        cases result with
        | sent count =>
          dsimp only at h
          split at h
          · rename_i hcount
            obtain rfl := Option.some.inj h
            simp [Event.segment, hframe, hcount.2]
          · simp at h
        | transientError =>
          obtain rfl := Option.some.inj h
          simp [Event.segment]
        | broken =>
          obtain rfl := Option.some.inj h
          simp [Event.segment]
  · simp at h

theorem run_segments {s t : Worker} {events : List Event} (h : exec step s events = some t) :
    t.segments = s.segments ++ events.filterMap Event.segment ∧
      ∀ e ∈ events, ∀ g ∈ e.segment, g.count ≤ g.frame.length := by
  induction events generalizing s with
  | nil =>
    obtain rfl := Option.some.inj h
    simp
  | cons e events ih =>
    obtain ⟨s', hs, hrest⟩ := exec_cons.mp h
    obtain ⟨hsegments, hcount⟩ := step_segments hs
    obtain ⟨hrun, hcounts⟩ := ih hrest
    refine ⟨?_, List.forall_mem_cons.mpr ⟨hcount, hcounts⟩⟩
    rw [hrun, hsegments, List.append_assoc]
    cases hseg : e.segment <;> simp [hseg]

theorem run_framed_iff {events : List Event} {t : Worker} (hrun : exec step start events = some t) :
    Framed t.segments ↔ (events.filterMap Event.segment).Pairwise fun g _ => g.count =
      g.frame.length := by
  have hsegments : t.segments = events.filterMap Event.segment := (run_segments hrun).1
  rw [hsegments]
  apply framed_iff_pairwise
  intro g hg
  obtain ⟨e, -, he⟩ := List.mem_filterMap.mp hg
  exact segment_frame he

theorem run_framed_iff_short {events : List Event} {t : Worker}
    (hrun : exec step start events = some t) :
    Framed t.segments ↔ events.Pairwise fun e e' => e.Short → ¬ e'.Puts := by
  rw [run_framed_iff hrun, List.pairwise_filterMap]
  constructor
  · apply List.Pairwise.imp
    rintro e e' h ⟨g, hg, hshort⟩ hputs
    obtain ⟨g', hg'⟩ := Option.isSome_iff_exists.mp hputs
    have hcount := h g hg g' hg'
    omega
  · intro hall
    apply List.Pairwise.imp_of_mem _ hall
    intro e e' he _ h g hg g' hg'
    by_contra hne
    have hle := (run_segments hrun).2 e he g hg
    exact h ⟨g, hg, by omega⟩ (by simp [Event.Puts, hg'])

/-- The bytes on the connection are whole frames up to its end, and nothing follows a frame that is
cut, exactly if no `send` takes anything after one that took only a part. -/
theorem framed_iff {events : List Event} {t : Worker} (hrun : exec step start events = some t) :
    FramedBytes (stream t.segments) ∧ Framed t.segments ↔
      events.Pairwise fun e e' => e.Short → ¬ e'.Puts := by
  rw [← run_framed_iff_short hrun]
  exact ⟨And.right, fun h => ⟨h.stream, h⟩⟩

/-- A notification for a datagram that was written to the shared memory. -/
def relay (datagram : List UInt8) (result : SendResult) : Event :=
  .notified true (handleUdpRead true (.zero _) (.replicate _ 0) datagram).2 (.replicate _ 0) result

section
variable {d : List UInt8} (hd : 1 ≤ d.length)
include hd

theorem relay_segment (count : Nat) :
    (relay d (.sent count)).segment = some ⟨frameOf d, count⟩ := by
  have hcarries := (handleUdpRead_carries hd (.zero _) (.replicate _ 0)).2
  simp [relay, Event.segment, relayFrame_of_carries hcarries]

theorem relay_step {count : Nat} (hcount : 1 ≤ count ∧ count ≤ (frameOf d).length)
    (segments : List Segment) :
    step ⟨true, segments⟩ (relay d (.sent count)) =
      some ⟨true, segments ++ [⟨frameOf d, count⟩]⟩ := by
  have hcarries := (handleUdpRead_carries hd (.zero _) (.replicate _ 0)).2
  simp [relay, step, relayFrame_of_carries hcarries, hcount]

end

theorem framed_cut_at_end :
    ∃ t, exec step start [relay (ascii "a") (.sent 14), relay (ascii "b") (.sent 3), .quit] =
      some t ∧
      FramedBytes (stream t.segments) ∧ Framed t.segments := by
  have hrun : exec step start [relay (ascii "a") (.sent 14), relay (ascii "b") (.sent 3), .quit] =
      some ⟨false, [⟨frameOf (ascii "a"), 14⟩, ⟨frameOf (ascii "b"), 3⟩]⟩ :=
    exec_cons.mpr ⟨_, relay_step (by decide) (by decide) _,
      exec_cons.mpr ⟨_, relay_step (by decide) (by decide) _, rfl⟩⟩
  refine ⟨_, hrun, (framed_iff hrun).mpr ?_⟩
  have hquit : ¬ Event.Puts .quit := by simp [Event.Puts, Event.segment]
  have hwhole : ¬ (relay (ascii "a") (.sent 14)).Short := by
    rintro ⟨g, hg, hlt⟩
    rw [relay_segment (by decide), Option.some.injEq] at hg
    subst hg
    revert hlt
    decide
  simp [hquit, hwhole]

theorem short_send_breaks_framing :
    ∃ t, exec step start [relay (ascii "a") (.sent 5), relay (ascii "b") (.sent 14)] = some t ∧
      stream t.segments = ascii "[TCP-[TCP-RELAY] b\n" ∧ ¬ FramedBytes (stream t.segments) := by
  have hrun : exec step start [relay (ascii "a") (.sent 5), relay (ascii "b") (.sent 14)] =
      some ⟨true, [⟨frameOf (ascii "a"), 5⟩, ⟨frameOf (ascii "b"), 14⟩]⟩ :=
    exec_cons.mpr ⟨_, relay_step (by decide) (by decide) _,
      exec_cons.mpr ⟨_, relay_step (by decide) (by decide) _, rfl⟩⟩
  refine ⟨_, hrun, by decide, fun hframed => ?_⟩
  have hhead := hframed.take_head (n := 6) (by decide) (by decide)
  revert hhead
  decide

end StudyC.Relay.Framing
