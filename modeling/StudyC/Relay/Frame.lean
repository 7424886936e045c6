import StudyC.Shm.Api

/-!
# From a datagram to the Viewer's screen

The bounded copies that a datagram goes through: the Collector's receive buffer, the shared memory,
the worker's payload and TCP buffers, and the receive buffer of the Viewer.
-/

open CString StudyC.Shm

namespace StudyC.Relay

/-- `buffer` of `handle_udp_read`, after a `recvfrom` that leaves room for the NUL. -/
abbrev UdpBuffer := Vector UInt8 (maxPayloadSize - 1 + 1)

def tcpBufSize : Nat := maxPayloadSize + 64

def tcpRecvMax : Nat := 2047

/-- What `handle_udp_read` does with a datagram before it notifies. The result says whether it does,
and an empty datagram is ignored. -/
def handleUdpRead (locked : Bool) (shm : SysV) (stale : UdpBuffer) (datagram : List UInt8) :
    Bool × SysV :=
  if min datagram.length (maxPayloadSize - 1) = 0 then (false, shm)
  else shmApiWrite locked shm 100
    ⟨cstr (recvString (n := maxPayloadSize - 1) stale datagram).toList, cstr_nonul _⟩

/-- What `router_worker` hands to `send` for a notification. -/
def relayFrame (locked : Bool) (shm : SysV) (tcpStale : Vector UInt8 tcpBufSize) :
    Option (List UInt8) :=
  let r := shmApiRead locked shm true (some (.replicate _ 0))
  match r.ret, r.msg with
  | true, some payload =>
    let text := ascii "[TCP-RELAY] " ++ cstr payload.toList ++ ascii "\n"
    some (cstr (snprintf tcpStale tcpBufSize text).toList)
  | _, _ => none

/-- What the Viewer prints of one `recv`, between its two rulers. -/
def printedBody (stale : Vector UInt8 (tcpRecvMax + 1)) (chunk : List UInt8) : List UInt8 :=
  cstr (recvString stale chunk).toList

/-! ## What should come out -/

/-- The datagram up to its first NUL, and at most 1023 bytes of it. -/
def payloadOf (datagram : List UInt8) : List UInt8 := cstr (datagram.take (maxPayloadSize - 1))

def frameOf (datagram : List UInt8) : List UInt8 :=
  ascii "[TCP-RELAY] " ++ payloadOf datagram ++ ascii "\n"

def frame (payload : List UInt8) : List UInt8 := ascii "[TCP-RELAY] " ++ payload ++ ascii "\n"

theorem payloadOf_length (d : List UInt8) : (payloadOf d).length ≤ maxPayloadSize - 1 :=
  Nat.le_trans (cstr_length_le _) (List.length_take_le _ _)

theorem frame_nonul {payload : List UInt8} (h : ∀ b ∈ payload, b ≠ 0) :
    ∀ b ∈ frame payload, b ≠ 0 := by
  intro b hb
  rw [frame, List.mem_append, List.mem_append] at hb
  rcases hb with (hb | hb) | hb
  · exact (CStr.lit "[TCP-RELAY] ").nonul b hb
  · exact h b hb
  · exact (CStr.lit "\n").nonul b hb

theorem frame_length (payload : List UInt8) : (frame payload).length = payload.length + 13 := by
  have hparts : (ascii "[TCP-RELAY] ").length = 12 ∧ (ascii "\n").length = 1 := by decide
  rw [frame, List.length_append, List.length_append, hparts.1, hparts.2]
  omega

/-! ## Each stage -/

def Carries (shm : SysV) (p : List UInt8) : Prop :=
  cstr shm.message.toList = p ∧
    ∀ buf, (shmApiRead true shm true (some buf)).msg.map (fun b => cstr b.toList) = some p

theorem handleUdpRead_carries {d : List UInt8} (hd : 1 ≤ d.length) (shm : SysV)
    (stale : UdpBuffer) :
    (handleUdpRead true shm stale d).1 = true ∧
      Carries (handleUdpRead true shm stale d).2 (payloadOf d) := by
  have hmax : 0 < maxPayloadSize - 1 := by decide
  obtain ⟨msg, hmsg, hwrite⟩ : ∃ msg : CStr, msg.bytes = payloadOf d ∧
      handleUdpRead true shm stale d = shmApiWrite true shm 100 msg := by
    refine ⟨⟨cstr (recvString (n := maxPayloadSize - 1) stale d).toList, cstr_nonul _⟩, ?_, ?_⟩
    · rw [payloadOf, ← cstr_recvString]
    · rw [handleUdpRead, if_neg (by omega)]
  have htake : (payloadOf d).take (maxPayloadSize - 1) = payloadOf d :=
    List.take_of_length_le (payloadOf_length d)
  have hholds := write_holds (by decide) shm 100 msg
  have hread := read_holds (by decide) le_rfl hholds true
  rw [Holds, hmsg, htake] at hholds
  rw [hmsg, htake] at hread
  rw [hwrite]
  exact ⟨write_ret _ _ _, hholds, hread⟩

theorem cstr_tcpBuf (tcpStale : Vector UInt8 tcpBufSize) (payload : Vector UInt8 maxPayloadSize) :
    cstr (snprintf tcpStale tcpBufSize (frame (cstr payload.toList))).toList =
      frame (cstr payload.toList) := by
  -- the TCP buffer has room for every payload and its frame
  have hpayload : (cstr payload.toList).length ≤ maxPayloadSize := by
    simpa using cstr_length_le payload.toList
  have hlen := frame_length (cstr payload.toList)
  have hsize : tcpBufSize = maxPayloadSize + 64 := rfl
  rw [cstr_snprintf tcpStale _ (by decide) le_rfl (frame_nonul (cstr_nonul _)),
    List.take_of_length_le (by omega)]

theorem relayFrame_eq (locked : Bool) (shm : SysV) (tcpStale : Vector UInt8 tcpBufSize) :
    relayFrame locked shm tcpStale =
      let r := shmApiRead locked shm true (some (.replicate _ 0))
      if r.ret then r.msg.map fun payload => frame (cstr payload.toList) else none := by
  unfold relayFrame
  dsimp only
  split
  · rename_i payload hret hmsg
    rw [hret, if_pos rfl, hmsg, Option.map_some, ← cstr_tcpBuf tcpStale payload]
    rfl
  · rename_i hnone
    cases hret : (shmApiRead locked shm true (some (.replicate _ 0))).ret with
    | false => rfl
    | true =>
      have hmsg := Option.eq_none_iff_forall_ne_some.mpr fun payload => hnone payload hret
      rw [hmsg]
      rfl

theorem relayFrame_of_carries {shm : SysV} {d : List UInt8} (h : Carries shm (payloadOf d))
    (tcpStale : Vector UInt8 tcpBufSize) : relayFrame true shm tcpStale = some (frameOf d) := by
  obtain ⟨payload, hmsg, hp⟩ := Option.map_eq_some_iff.mp (h.2 (.replicate _ 0))
  rw [relayFrame_eq]
  simp only [read_ret (show 0 < maxPayloadSize by decide), if_true, hmsg, Option.map_some, hp]
  rfl

theorem printedBody_eq {chunk : List UInt8} (hlen : chunk.length ≤ tcpRecvMax)
    (hnul : ∀ b ∈ chunk, b ≠ 0) (stale : Vector UInt8 (tcpRecvMax + 1)) :
    printedBody stale chunk = chunk := by
  rw [printedBody, cstr_recvString, List.take_of_length_le hlen, cstr_of_nonul hnul]

theorem printed_flatten {chunks : List (List UInt8)} (hsize : ∀ c ∈ chunks, c.length ≤ tcpRecvMax)
    (hnul : ∀ b ∈ chunks.flatten, b ≠ 0) (stale : Nat → Vector UInt8 (tcpRecvMax + 1)) :
    (chunks.mapIdx fun i c => printedBody (stale i) c).flatten = chunks.flatten := by
  -- however a stream without NULs is cut into chunks, the bodies printed make up the stream
  congr 1
  apply List.ext_getElem
  · rw [List.length_mapIdx]
  · intro i h1 h2
    have hmem : chunks[i] ∈ chunks := List.getElem_mem h2
    rw [List.getElem_mapIdx]
    exact printedBody_eq (hsize _ hmem) (fun b hb => hnul b (List.mem_flatten.mpr ⟨_, hmem, hb⟩)) _

/-- Every datagram becomes its frame, no stage after the first cuts it again, and the Viewer prints
the stream of the frames however TCP delivers it. -/
theorem relay_end_to_end (ds : List (List UInt8)) (hds : ∀ d ∈ ds, 1 ≤ d.length)
    (chunks : List (List UInt8)) (hsplit : chunks.flatten = (ds.map frameOf).flatten)
    (hsize : ∀ c ∈ chunks, 1 ≤ c.length ∧ c.length ≤ tcpRecvMax)
    (stale : Nat → Vector UInt8 (tcpRecvMax + 1)) :
    (∀ d ∈ ds, ∀ (shm : SysV) (udpStale : UdpBuffer) (tcpStale : Vector UInt8 tcpBufSize),
      Carries (handleUdpRead true shm udpStale d).2 (payloadOf d) ∧
      relayFrame true (handleUdpRead true shm udpStale d).2 tcpStale = some (frameOf d)) ∧
    (chunks.mapIdx fun i c => printedBody (stale i) c).flatten = (ds.map frameOf).flatten := by
  constructor
  · intro d hd shm udpStale tcpStale
    have hcarries := (handleUdpRead_carries (hds d hd) shm udpStale).2
    exact ⟨hcarries, relayFrame_of_carries hcarries tcpStale⟩
  · rw [printed_flatten (fun c hc => (hsize c hc).2) ?_ stale, hsplit]
    intro b hb
    rw [hsplit, List.mem_flatten] at hb
    obtain ⟨f, hf, hbf⟩ := hb
    obtain ⟨d, -, rfl⟩ := List.mem_map.mp hf
    exact frame_nonul (cstr_nonul _) b hbf

theorem relay_of_hi :
    ([ascii "[TCP-", ascii "RELAY] hi\n"].mapIdx fun _ c =>
      printedBody (.replicate _ 0) c).flatten =
      ([ascii "hi"].map frameOf).flatten :=
  (relay_end_to_end [ascii "hi"] (by decide) [ascii "[TCP-", ascii "RELAY] hi\n"] (by decide)
    (by decide)
    fun _ => .replicate _ 0).2

end StudyC.Relay
