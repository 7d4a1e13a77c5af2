import DvsServer.Core.WireStreams
import DvsServer.Ortp.Delivery

/-!
# From the buffers of the server to a receiver

The datagrams of one session object reach a receiving session of the same
library over a network that loses, repeats and reorders them.
-/

namespace DvsServer.Core.WireStreams

open DvsServer.Lib DvsServer.Com.RtpSend DvsServer.Core.Session DvsServer.Core.TimeStamps
open DvsServer.Ortp DvsServer.Ortp.RtpMod

/-- The elements from place `a` on, `n` of them. -/
def window {α : Type} (a n : Nat) (l : List α) : List α := (l.drop a).take n

/-- The packets of a stream that its datagrams carry. -/
def packets (medium : Medium) (ssrc : BitVec 32) (datagrams : List Datagram) : List Packet :=
  datagrams.mapIdx fun k d => streamPacket medium ssrc k d.payload

/-- The packets a receiver reads off the datagrams. -/
theorem mem_packets {medium : Medium} {ssrc : BitVec 32} {datagrams : List Datagram}
    (stream : IsStream medium ssrc datagrams) (a n : Nat) {d : Datagram}
    (inside : d ∈ window a n datagrams) :
    ∃ p ∈ window a n (packets medium ssrc datagrams),
      parsePacket d.bytes = some p := by
  have read : (window a n datagrams).map (fun d => parsePacket d.bytes) =
      (window a n (packets medium ssrc datagrams)).map some := by
    unfold window packets
    rw [List.map_take, List.map_drop, stream, List.map_take, List.map_drop]
    congr 2
    apply List.ext_getElem
    · simp
    · intro i first second
      simp
  have some_ : parsePacket d.bytes ∈
      (window a n (packets medium ssrc datagrams)).map some := by
    rw [← read]
    exact List.mem_map_of_mem inside
  obtain ⟨p, isSent, same⟩ := List.mem_map.mp some_
  exact ⟨p, isSent, same.symm⟩

section Window

variable {medium : Medium} {ssrc : BitVec 32} {datagrams : List Datagram} {a n : Nat}

theorem length_window_le {α : Type} (a n : Nat) (l : List α) : (window a n l).length ≤ n := by
  unfold window
  rw [List.length_take]
  exact Nat.min_le_left _ _

/-- The `i`-th packet of a window. -/
theorem getElem_window {i : Nat} (inside : i < (window a n (packets medium ssrc datagrams)).length) :
    ∃ payload, (window a n (packets medium ssrc datagrams))[i] =
      streamPacket medium ssrc (a + i) payload := by
  simp only [window, packets, List.getElem_take, List.getElem_drop, List.getElem_mapIdx]
  exact ⟨_, rfl⟩

theorem place_streamPacket {i : Nat} (near : i < 2 ^ 15) (payload : List Byte) :
    place (BitVec.ofNat 16 a) (streamPacket medium ssrc (a + i) payload) = i := by
  apply SerialNumber.distance_ofNat_add
  omega

theorem stamp_streamPacket {i : Nat} (near : i * medium.timeStampInc.toNat < 2 ^ 32)
    (payload : List Byte) :
    SerialNumber.distance (stampAt medium a).toBitVec (streamPacket medium ssrc (a + i) payload).ts =
      i * medium.timeStampInc.toNat := by
  have ahead : (streamPacket medium ssrc (a + i) payload).ts =
      BitVec.ofNat 32 (a * medium.timeStampInc.toNat + i * medium.timeStampInc.toNat) := by
    rw [← Nat.add_mul]
    rfl
  rw [ahead]
  exact SerialNumber.distance_ofNat_add near

theorem timeStampInc_le (medium : Medium) : medium.timeStampInc.toNat ≤ 900 := by
  cases medium <;> decide

/-- Half the circle of sequence numbers is a window in which the packets of a
stream are in order. -/
theorem mediaStream_window (short : n ≤ 2 ^ 15) :
    Receive.MediaStream (BitVec.ofNat 16 a) (stampAt medium a).toBitVec medium.payloadType
      (n * medium.timeStampInc.toNat) (window a n (packets medium ssrc datagrams)) := by
  have bounded := length_window_le a n (packets medium ssrc datagrams)
  have inc := timeStampInc_le medium
  have near : ∀ i, i < n → i * medium.timeStampInc.toNat ≤ n * medium.timeStampInc.toNat := by
    intro i inside
    exact Nat.mul_le_mul_right _ (Nat.le_of_lt inside)
  have far : n * medium.timeStampInc.toNat < 2 ^ 32 := by
    calc n * medium.timeStampInc.toNat ≤ 2 ^ 15 * 900 := Nat.mul_le_mul short inc
      _ < 2 ^ 32 := by decide
  constructor
  · intro p inside
    obtain ⟨i, hi, rfl⟩ := List.mem_iff_getElem.mp inside
    obtain ⟨payload, shape⟩ := getElem_window hi
    rw [shape]
    change place _ _ < _
    rw [place_streamPacket (by omega)]
    omega
  · apply List.pairwise_iff_getElem.mpr
    intro i j hi hj ahead
    obtain ⟨payload, shape⟩ := getElem_window hi
    obtain ⟨payload', shape'⟩ := getElem_window hj
    rw [shape, shape']
    change place _ _ < place _ _
    rw [place_streamPacket (by omega), place_streamPacket (by omega)]
    exact ahead
  · apply List.pairwise_iff_getElem.mpr
    intro i j hi hj ahead
    obtain ⟨payload, shape⟩ := getElem_window hi
    obtain ⟨payload', shape'⟩ := getElem_window hj
    have nearI := near i (by omega)
    have nearJ := near j (by omega)
    rw [shape, shape', stamp_streamPacket (by omega), stamp_streamPacket (by omega)]
    exact Nat.mul_le_mul_right _ (Nat.le_of_lt ahead)
  · intro p inside
    obtain ⟨i, hi, rfl⟩ := List.mem_iff_getElem.mp inside
    obtain ⟨payload, shape⟩ := getElem_window hi
    have nearI := near i (by omega)
    rw [shape, stamp_streamPacket (by omega)]
    exact nearI
  · intro p inside
    obtain ⟨i, hi, rfl⟩ := List.mem_iff_getElem.mp inside
    obtain ⟨payload, shape⟩ := getElem_window hi
    rw [shape]
    cases medium <;> rfl

end Window

theorem data_packets (medium : Medium) (ssrc : BitVec 32) (datagrams : List Datagram) :
    (packets medium ssrc datagrams).map (fun p => p.data) = datagrams.map fun d => d.payload := by
  apply List.ext_getElem
  · simp [packets]
  · intro i first second
    simp [packets, streamPacket]

/-- What the network brings a receiver: datagrams of the window, as often and in
whatever order it likes.  The questions of the application go on. -/
def Brings (datagrams : List Datagram) (limit : Nat) (session : Receive.RecvSession)
    (event : Receive.Op × Receive.Taken) : Prop :=
  match event.1 with
  | .datagram msg _ => ∃ d ∈ datagrams, d.bytes = msg
  | .recvm userTs => session.recvSync = true ∨ Receive.GoesOn limit session userTs

/-- Whatever calls the server makes, a receiver of any part of the stream of a
session object gets the contents of the buffers given to `rtp_send` for that
object, unchanged, in the order of the calls and each at most once. -/
theorem buffers_arrive_in_order {objects : Nat → SendSession} {history : History} {s : Wire}
    (run : Run (ExecStep wireExec) (wireStart objects) history s) {handle : Nat} {medium : Medium}
    (sends : (s.objects handle).sendPt = medium.payloadType) {a n limit : Nat}
    {profile : Receive.Profile} (short : n ≤ 2 ^ 15)
    (noEvents : profile.telephoneEventsPt ≠ medium.payloadType)
    (room : n * medium.timeStampInc.toNat + limit + (Receive.timeJumpLimit profile 0).toNat ≤ 2 ^ 31)
    {received : Receive.History} {session : Receive.RecvSession}
    (reception : Run (Guarded (Brings (window a n (datagramsOf handle history)) limit)
      (ExecStep (Receive.recvExec profile))) (Receive.receiver profile medium.payloadType)
      received session) :
    ((Receive.delivered received).map fun p => p.data).Sublist
      ((window a n (datagramsOf handle history)).map fun d => d.payload) := by
  have stream := streams_of_run run sends
  generalize (s.objects handle).sendSsrc = ssrc at stream
  have expected : Run (Guarded
      (Receive.Expected (window a n (packets medium ssrc (datagramsOf handle history))) limit)
      (ExecStep (Receive.recvExec profile))) (Receive.receiver profile medium.payloadType)
      received session := by
    apply reception.mono
    rintro state ⟨op, taken⟩ next ⟨brings, effect⟩
    refine ⟨?_, effect⟩
    cases op with
    | datagram msg jitter =>
        obtain ⟨d, inside, same⟩ := brings
        obtain ⟨p, isSent, read⟩ := mem_packets stream a n inside
        intro q reads
        rw [← same, read] at reads
        cases reads
        exact isSent
    | recvm userTs => exact brings
  have inv := Receive.onStream_of_run (mediaStream_window short) noEvents room expected
  have order := (List.sublist_append_left _ _).trans (inv.sublist (mediaStream_window short))
  have payloads := order.map fun p => p.data
  unfold window at payloads ⊢
  rw [List.map_take, List.map_drop, data_packets] at payloads
  rw [List.map_take, List.map_drop]
  exact payloads

instance (datagrams : List Datagram) (limit : Nat) (session : Receive.RecvSession)
    (event : Receive.Op × Receive.Taken) : Decidable (Brings datagrams limit session event) :=
  match event with
  | (.datagram msg _, _) => inferInstanceAs (Decidable (∃ d ∈ datagrams, d.bytes = msg))
  | (.recvm userTs, _) =>
      inferInstanceAs (Decidable (session.recvSync = true ∨ Receive.GoesOn limit session userTs))

/-- The two packets arrive the wrong way round. -/
def swapped : List Receive.Op :=
  [.datagram (streamPacket .video 7 1 [64, 65]).encode ⟨0, 0, 0⟩,
    .datagram (streamPacket .video 7 0 [40, 41, 42]).encode ⟨0, 0, 0⟩, .recvm 0, .recvm 900]

theorem buffers_arrive_in_order_swapped : ∃ received session,
    execAll (checked (Brings (window 0 2 (datagramsOf 0 twoRun.1)) 100000)
        (Receive.recvExec Receive.videoProfile)) swapped
        ([], Receive.receiver Receive.videoProfile Medium.video.payloadType) =
      some (received, session) ∧
    ((Receive.delivered received).map fun p => p.data).Sublist
      ((window 0 2 (datagramsOf 0 twoRun.1)).map fun d => d.payload) := by
  obtain ⟨result, executed⟩ := Option.isSome_iff_exists.mp
    (by decide : (execAll (checked (Brings (window 0 2 (datagramsOf 0 twoRun.1)) 100000)
      (Receive.recvExec Receive.videoProfile)) swapped
      ([], Receive.receiver Receive.videoProfile Medium.video.payloadType)).isSome)
  refine ⟨result.1, result.2, executed, ?_⟩
  exact buffers_arrive_in_order run_twoRun (by decide) (by decide) (by decide) (by decide)
    ((execAll_run .nil executed).mono ExecStep.guarded)

end DvsServer.Core.WireStreams
