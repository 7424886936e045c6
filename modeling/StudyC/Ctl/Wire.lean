import StudyC.Ctl.Main
import StudyC.Lib.Codec

/-!
# Requests and responses as datagrams

`sendto` takes the bytes of a structure and `recvfrom` puts them into another one. Neither structure
has padding, so that the bytes and the fields determine each other.
-/

open CString

namespace StudyC.Ctl

open Mgmt

/-! ## Little-endian numbers -/

theorem leBytes_leNat (l : List UInt8) : leBytes l.length (leNat l) = l := by
  induction l with
  | nil => rfl
  | cons b l ih =>
    have hlow : (b.toNat + 256 * leNat l) % 256 = b.toNat := by
      have := b.toNat_lt
      omega
    have hhigh : (b.toNat + 256 * leNat l) / 256 = leNat l := by
      have := b.toNat_lt
      omega
    rw [List.length_cons, leNat, leBytes, hhigh, ih]
    congr 1
    apply UInt8.toNat_inj.mp
    rw [UInt8.toNat_ofNat', hlow]

/-- A type whose values are the numbers of `size` bytes. -/
def le {α : Type} (size : Nat) (toNat : α → Nat) (ofNat : Nat → α) (hlt : ∀ a, toNat a < 256 ^ size)
    (hleft : ∀ a, ofNat (toNat a) = a) (hright : ∀ v < 256 ^ size, toNat (ofNat v) = v) :
    Codec α where
  size := size
  encode a := leBytes size (toNat a)
  decode l := ofNat (leNat l)
  length_encode a := leBytes_length _ _
  decode_encode a := by rw [leNat_leBytes, Nat.mod_eq_of_lt (hlt a), hleft]
  encode_decode l hl := by
    subst hl
    rw [hright _ (leNat_lt l), leBytes_leNat]

def u16 : Codec UInt16 :=
  le 2 UInt16.toNat UInt16.ofNat UInt16.toNat_lt (fun _ => UInt16.ofNat_toNat) fun _ =>
    UInt16.toNat_ofNat_of_lt

def u32 : Codec UInt32 :=
  le 4 UInt32.toNat UInt32.ofNat UInt32.toNat_lt (fun _ => UInt32.ofNat_toNat) fun _ =>
    UInt32.toNat_ofNat_of_lt

def i64 : Codec Int64 :=
  le 8 (fun v => v.toUInt64.toNat) (fun v => (UInt64.ofNat v).toInt64)
    (fun v => v.toUInt64.toNat_lt)
    (fun v => by rw [UInt64.ofNat_toNat]; rfl) fun _ hv => UInt64.toNat_ofNat_of_lt hv

def timespec : Codec Timespec :=
  (i64.pair i64).map ⟨fun p => ⟨p.1, p.2⟩, fun t => (t.tvSec, t.tvNsec), fun _ => rfl, fun _ => rfl⟩

/-! ## The two structures -/

def requestCodec : Codec MgmtCommandRequest :=
  (u32.pair (Codec.byte.pair (Codec.byte.pair (u16.pair (timespec.pair
    ((Codec.bytes mgmtModuleNameSize).pair (Codec.bytes mgmtPayloadRequestSize))))))).map
  { toFun := fun (id, cmdType, flags, payloadLen, timestamp, target, payload) =>
      ⟨id, cmdType, flags, payloadLen, timestamp, target, payload⟩
    invFun := fun req => (req.requestId, req.cmdType, req.flags, req.payloadLen, req.timestamp,
      req.targetModule, req.payload)
    left_inv := fun _ => rfl
    right_inv := fun _ => rfl }

def responseCodec : Codec MgmtCommandResponse :=
  (u32.pair (Codec.byte.pair ((Codec.bytes 3).pair (timespec.pair (timespec.pair
    ((Codec.bytes mgmtModuleNameSize).pair (Codec.bytes mgmtPayloadResponseSize))))))).map
  { toFun := fun (id, result, reserved, requested, responded, source, payload) =>
      ⟨id, result, reserved, requested, responded, source, payload⟩
    invFun := fun resp => (resp.requestId, resp.resultCode, resp.reserved, resp.requestTimestamp,
      resp.responseTimestamp, resp.sourceModule, resp.payload)
    left_inv := fun _ => rfl
    right_inv := fun _ => rfl }

def part {n : Nat} (b : Vector UInt8 n) (off size : Nat) (h : off + size ≤ n) : Vector UInt8 size :=
  Vector.ofFn fun i => b[off + i.val]

/-- The buffer of `mgmt_send_command` read as the structure, like `requestOfBytes`. -/
def responseOfBytes (b : Vector UInt8 mgmtResponseSize) : MgmtCommandResponse where
  requestId := .ofNat (leNat (part b 0 4 (by decide)).toList)
  resultCode := b[4]
  reserved := part b 5 3 (by decide)
  requestTimestamp :=
    ⟨(UInt64.ofNat (leNat (part b 8 8 (by decide)).toList)).toInt64,
      (UInt64.ofNat (leNat (part b 16 8 (by decide)).toList)).toInt64⟩
  responseTimestamp :=
    ⟨(UInt64.ofNat (leNat (part b 24 8 (by decide)).toList)).toInt64,
      (UInt64.ofNat (leNat (part b 32 8 (by decide)).toList)).toInt64⟩
  sourceModule := part b 40 mgmtModuleNameSize (by decide)
  payload := part b 104 mgmtPayloadResponseSize (by decide)

/-! ## Offsets and fields -/

section
variable {n : Nat} (b : Vector UInt8 n)

theorem part_toList {off size : Nat} (h : off + size ≤ n) :
    (part b off size h).toList = (b.toList.drop off).take size := by
  apply List.ext_getElem
  · simp [part]
    omega
  · intro i h1 h2
    simp [part]

theorem part_eq_decode {off size : Nat} (h : off + size ≤ n) :
    part b off size h = (Codec.bytes size).decode ((b.toList.drop off).take size) := by
  rw [← part_toList b h]
  exact ((Codec.bytes size).decode_encode _).symm

theorem getElem_eq_decode {i : Nat} (h : i < n) :
    b[i] = Codec.byte.decode ((b.toList.drop i).take 1) := by
  rw [List.drop_eq_getElem_cons (by simpa using h)]
  simp [Codec.byte]

end

theorem timespec_decode (l : List UInt8) (off : Nat) :
    timespec.decode ((l.drop off).take 16) =
      ⟨i64.decode ((l.drop off).take 8), i64.decode ((l.drop (off + 8)).take 8)⟩ := by
  have hfirst : ((l.drop off).take 16).take 8 = (l.drop off).take 8 := List.take_take
  have hsecond : ((l.drop off).take 16).drop 8 = (l.drop (off + 8)).take 8 := by
    rw [List.drop_take, List.drop_drop]
  rw [← hfirst, ← hsecond]
  rfl

theorem requestCodec_decode {l : List UInt8} (hl : l.length = mgmtRequestSize) :
    requestCodec.decode l = ⟨u32.decode ((l.drop 0).take 4), Codec.byte.decode ((l.drop 4).take 1),
      Codec.byte.decode ((l.drop 5).take 1), u16.decode ((l.drop 6).take 2),
      ⟨i64.decode ((l.drop 8).take 8), i64.decode ((l.drop 16).take 8)⟩,
      (Codec.bytes mgmtModuleNameSize).decode ((l.drop 24).take mgmtModuleNameSize),
      (Codec.bytes mgmtPayloadRequestSize).decode ((l.drop 88).take mgmtPayloadRequestSize)⟩ := by
  have hlast : (l.drop 88).take mgmtPayloadRequestSize = l.drop 88 := by
    apply List.take_of_length_le
    rw [List.length_drop, hl]
    decide
  rw [hlast, ← timespec_decode l 8]
  have hdrop : ∀ i j, (l.drop i).drop j = l.drop (i + j) := fun i j => List.drop_drop
  rw [← hdrop 24 64, ← hdrop 8 16, ← hdrop 6 2, ← hdrop 5 1, ← hdrop 4 1]
  rfl

theorem responseCodec_decode {l : List UInt8} (hl : l.length = mgmtResponseSize) :
    responseCodec.decode l = ⟨u32.decode ((l.drop 0).take 4), Codec.byte.decode ((l.drop 4).take 1),
      (Codec.bytes 3).decode ((l.drop 5).take 3),
      ⟨i64.decode ((l.drop 8).take 8), i64.decode ((l.drop 16).take 8)⟩,
      ⟨i64.decode ((l.drop 24).take 8), i64.decode ((l.drop 32).take 8)⟩,
      (Codec.bytes mgmtModuleNameSize).decode ((l.drop 40).take mgmtModuleNameSize),
      (Codec.bytes mgmtPayloadResponseSize).decode
        ((l.drop 104).take mgmtPayloadResponseSize)⟩ := by
  have hlast : (l.drop 104).take mgmtPayloadResponseSize = l.drop 104 := by
    apply List.take_of_length_le
    rw [List.length_drop, hl]
    decide
  have hdrop : ∀ i j, (l.drop i).drop j = l.drop (i + j) := fun i j => List.drop_drop
  rw [hlast, ← timespec_decode l 8, ← timespec_decode l 24, ← hdrop 40 64, ← hdrop 24 16,
    ← hdrop 8 16, ← hdrop 5 3, ← hdrop 4 1]
  rfl

theorem requestOfBytes_eq (b : Vector UInt8 mgmtRequestSize) :
    requestOfBytes b = requestCodec.decode b.toList := by
  rw [requestCodec_decode b.length_toList, ← getElem_eq_decode b (by decide),
    ← getElem_eq_decode b (by decide), ← part_eq_decode b (by decide),
    ← part_eq_decode b (by decide), ← part_toList b (by decide),
    ← part_toList b (by decide), ← part_toList b (by decide), ← part_toList b (by decide)]
  rfl

theorem responseOfBytes_eq (b : Vector UInt8 mgmtResponseSize) :
    responseOfBytes b = responseCodec.decode b.toList := by
  rw [responseCodec_decode b.length_toList, ← getElem_eq_decode b (by decide),
    ← part_eq_decode b (by decide), ← part_eq_decode b (by decide), ← part_eq_decode b (by decide),
    ← part_toList b (by decide), ← part_toList b (by decide), ← part_toList b (by decide),
    ← part_toList b (by decide), ← part_toList b (by decide)]
  rfl

theorem memcpy_toList_full {n : Nat} (stale : Vector UInt8 n) {d : List UInt8} (hd : d.length = n) :
    (memcpy stale d).toList = d := by
  rw [memcpy_toList stale (by omega), hd, List.drop_eq_nil_of_le (by simp), List.append_nil]

theorem request_received (stale : Vector UInt8 mgmtRequestSize) (req : MgmtCommandRequest) :
    requestOfBytes (memcpy stale (requestCodec.encode req)) = req := by
  rw [requestOfBytes_eq, memcpy_toList_full stale (requestCodec.length_encode req),
    requestCodec.decode_encode]

theorem response_received (stale : Vector UInt8 mgmtResponseSize) (resp : MgmtCommandResponse) :
    responseOfBytes (memcpy stale (responseCodec.encode resp)) = resp := by
  rw [responseOfBytes_eq, memcpy_toList_full stale (responseCodec.length_encode resp),
    responseCodec.decode_encode]

/-- Both structures arrive as they were sent, whatever the buffer held before, and every datagram of
the right size is the bytes of one structure. -/
theorem wire_round_trip :
    (∀ (stale : Vector UInt8 mgmtRequestSize) (req : MgmtCommandRequest),
      requestOfBytes (memcpy stale (requestCodec.encode req)) = req) ∧
    (∀ b : Vector UInt8 mgmtRequestSize, requestCodec.encode (requestOfBytes b) = b.toList) ∧
    (∀ (stale : Vector UInt8 mgmtResponseSize) (resp : MgmtCommandResponse),
      responseOfBytes (memcpy stale (responseCodec.encode resp)) = resp) ∧
    ∀ b : Vector UInt8 mgmtResponseSize, responseCodec.encode (responseOfBytes b) = b.toList := by
  refine ⟨request_received, ?_, response_received, ?_⟩
  · intro b
    rw [requestOfBytes_eq, requestCodec.encode_decode _ b.length_toList]
  · intro b
    rw [responseOfBytes_eq, responseCodec.encode_decode _ b.length_toList]

end StudyC.Ctl
