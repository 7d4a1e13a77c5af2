import DvsServer.Lib.Run
import DvsServer.Ortp.RtpMod
import DvsServer.Ortp.Wire

/-!
# Receiving (`utils/ortp/src/rtpparse.c`, `utils/ortp/src/rtpsession.c`)

A receiving session: `rtp_recv` hands each datagram to `rtp_parse`, which puts
it in a queue of the session, and `rtp_session_recvm_with_ts` takes the packet
for a time stamp out of it.  What is computed with floating point numbers is an
input: the conversions of a profile, and the answers of the jitter control
while it adapts.
-/

namespace DvsServer.Ortp.Receive

open DvsServer.Lib DvsServer.Ortp.RtpMod

/-- What a session reads off its `RtpProfile`. -/
structure Profile where
  /-- `jitt_comp_ts` for a payload type that the profile has. -/
  jittCompTs : Int → Option (BitVec 32)
  /-- `rtp_session_time_to_ts` of the limit for jumps. -/
  timeToTs : Int → BitVec 32
  telephoneEventsPt : Int

structure RtpStats where
  packetRecv : Nat
  recv : Nat
  hwRecv : Nat
  unavaillable : Nat
  outoftime : Nat
  skipped : Nat
  bad : Nat
  discarded : Nat
deriving DecidableEq

/-- The fields of `RtpSession` and its `RtpStream` that receiving uses. -/
structure RecvSession where
  recvSsrc : BitVec 32
  sendPt : Int
  recvPt : Int
  hwRecvPt : Int
  telephoneEventsPt : Int
  /-- The flag `RTP_SESSION_RECV_SYNC`. -/
  recvSync : Bool
  maxRqSize : Nat
  tsJump : BitVec 32
  rq : List Packet
  tevRq : List Packet
  adaptive : Bool
  jittCompTs : BitVec 32
  correctiveSlide : BitVec 32
  rcvTsOffset : BitVec 32
  rcvDiffTs : BitVec 32
  hwrcvDiffTs : BitVec 32
  rcvLastTs : BitVec 32
  rcvLastAppTs : BitVec 32
  rcvLastRetTs : BitVec 32
  /-- `hwrcv_extseq` as the two halves of a `poly32_t`. -/
  extseqHi : BitVec 16
  extseqLo : BitVec 16
  hwrcvSinceLastSR : Nat
  stats : RtpStats
deriving DecidableEq

/-- What an adapting `jitter_control_new_packet` says of a packet. -/
structure Jitter where
  slide : BitVec 32
  safeDelay : BitVec 32
  correctiveSlide : BitVec 32

section Payload

variable (profile : Profile)

/-- `rtp_session_set_time_jump_limit` -/
def timeJumpLimit (sendPt : Int) : BitVec 32 :=
  if profile.timeToTs sendPt = 0 then 1 <<< 31 else profile.timeToTs sendPt

/-- `payload_type_changed` -/
def payloadTypeChanged (session : RecvSession) (jittCompTs : BitVec 32) : RecvSession :=
  { session with jittCompTs, tsJump := timeJumpLimit profile session.sendPt }

/-- `rtp_session_update_payload_type` -/
def updatePayloadType (session : RecvSession) (paytype : Int) : RecvSession :=
  let session := { session with hwRecvPt := paytype }
  match profile.jittCompTs paytype with
  | none => session
  | some jittCompTs => payloadTypeChanged profile session jittCompTs

/-- `rtp_session_set_recv_payload_type` -/
def rtpSessionSetRecvPayloadType (session : RecvSession) (paytype : Int) : RecvSession :=
  updatePayloadType profile { session with recvPt := paytype } paytype

/-- `rtp_session_init` of a session that receives. -/
def rtpSessionInit : RecvSession where
  recvSsrc := 0
  sendPt := 0
  recvPt := -1
  hwRecvPt := -1
  telephoneEventsPt := profile.telephoneEventsPt
  recvSync := true
  maxRqSize := 100
  tsJump := timeJumpLimit profile 0
  rq := []
  tevRq := []
  adaptive := false
  jittCompTs := 0
  correctiveSlide := 0
  rcvTsOffset := 0
  rcvDiffTs := 0
  hwrcvDiffTs := 0
  rcvLastTs := 0
  rcvLastAppTs := 0
  rcvLastRetTs := 0
  extseqHi := 0
  extseqLo := 0
  hwrcvSinceLastSR := 0
  stats := ⟨0, 0, 0, 0, 0, 0, 0, 0⟩

/-! ## Parsing -/

/-- The loop of `split_and_queue` that removes the oldest messages. -/
def shrink (maxrqsz : Nat) : List Packet → List Packet × Nat
  | [] => ([], 0)
  | tmp :: rest =>
      if maxrqsz < rest.length + 1 then ((shrink maxrqsz rest).1, (shrink maxrqsz rest).2 + 1)
      else (tmp :: rest, 0)

/-- The queue after `split_and_queue`, and `*discarded`. -/
def splitAndQueue (q : List Packet) (maxrqsz : Nat) (mp : Packet) : List Packet × Nat :=
  if mp.data = [] then (q, 1) else shrink maxrqsz (enqueue q mp)

/-- The statistics on sequence numbers in `rtp_parse`. -/
def updateExtseq (hi lo seq : BitVec 16) : BitVec 16 × BitVec 16 :=
  if lo < seq then (hi, seq)
  else if seq < 200 ∧ 65336 < lo then (hi + 1, seq)
  else (hi, lo)

/-- The packet goes into the queue of telephone events. -/
def queueEvent (session : RecvSession) (rtp : Packet) : RecvSession :=
  let split := splitAndQueue session.tevRq session.maxRqSize rtp
  { session with
    tevRq := split.1
    stats := { session.stats with discarded := session.stats.discarded + split.2 } }

/-- The packet goes into the queue of media packets. -/
def queueMedia (session : RecvSession) (rtp : Packet) : RecvSession :=
  let split := splitAndQueue session.rq session.maxRqSize rtp
  { session with
    rq := split.1
    stats := { session.stats with discarded := session.stats.discarded + split.2 } }

/-- `jitter_control_new_packet` and the difference it gives to the session. -/
def trackJitter (session : RecvSession) (jitter : Jitter) : RecvSession :=
  if session.adaptive then
    { session with
      correctiveSlide := jitter.correctiveSlide
      rcvDiffTs := session.hwrcvDiffTs + jitter.slide - jitter.safeDelay }
  else { session with rcvDiffTs := session.hwrcvDiffTs - session.jittCompTs }

/-- The packet is older than what the user has asked for; a jump into the
future is only signalled. -/
def tooOld (session : RecvSession) (rtp : Packet) : Bool :=
  !rtpTimestampIsNewerThan rtp.ts (session.rcvLastTs + session.tsJump) &&
    rtpTimestampIsNewerThan session.rcvLastTs rtp.ts

def countOutoftime (session : RecvSession) : RecvSession :=
  { session with stats := { session.stats with outoftime := session.stats.outoftime + 1 } }

/-- `rtp_parse` of a media packet. -/
def parseMedia (session : RecvSession) (rtp : Packet) (jitter : Jitter) : RecvSession :=
  let session :=
    if session.hwRecvPt ≠ rtp.header.paytype.toNat then
      updatePayloadType profile session rtp.header.paytype.toNat
    else session
  if session.recvSync then queueMedia session rtp
  else
    let session := trackJitter session jitter
    if tooOld session rtp then countOutoftime session else queueMedia session rtp

/-- The statistics at the start of `rtp_parse`. -/
def countPacket (session : RecvSession) (msg : List Byte) : RecvSession :=
  { session with
    hwrcvSinceLastSR := session.hwrcvSinceLastSR + 1
    stats := { session.stats with
      packetRecv := session.stats.packetRecv + 1
      hwRecv := session.stats.hwRecv + msg.length } }

def countBad (session : RecvSession) : RecvSession :=
  { session with stats := { session.stats with bad := session.stats.bad + 1 } }

/-- What `rtp_parse` notes of every header that passed the checks. -/
def noteHeader (session : RecvSession) (rtp : Packet) : RecvSession :=
  let extseq := updateExtseq session.extseqHi session.extseqLo rtp.seq
  { session with recvSsrc := rtp.header.ssrc, extseqHi := extseq.1, extseqLo := extseq.2 }

/-- `rtp_parse` -/
def rtpParse (session : RecvSession) (msg : List Byte) (jitter : Jitter) : RecvSession :=
  let session := countPacket session msg
  match parsePacket msg with
  | none => countBad session
  | some rtp =>
      let session := noteHeader session rtp
      if (rtp.header.paytype.toNat : Int) = session.telephoneEventsPt then queueEvent session rtp
      else parseMedia profile session rtp jitter

/-- One datagram in the loop of `rtp_recv`; an empty one only ends the loop, and those
behind it wait for the next call. -/
def rtpRecvDatagram (session : RecvSession) (msg : List Byte) (jitter : Jitter) : RecvSession :=
  if msg = [] then session
  else if msg.length < rtpFixedHeaderSize then countBad session
  else rtpParse profile session msg jitter

end Payload

/-! ### What a datagram does -/

theorem shrink_eq (maxrqsz : Nat) (q : List Packet) :
    shrink maxrqsz q = (q.drop (q.length - maxrqsz), q.length - maxrqsz) := by
  induction q with
  | nil => simp [shrink]
  | cons tmp rest ih =>
      rw [shrink]
      split
      · rename_i full
        have more : (tmp :: rest).length - maxrqsz = (rest.length - maxrqsz) + 1 := by
          rw [List.length_cons]
          omega
        rw [more, ih, List.drop_succ_cons]
      · rename_i fits
        have none : (tmp :: rest).length - maxrqsz = 0 := by
          rw [List.length_cons]
          omega
        rw [none, List.drop_zero]

theorem rtpRecvDatagram_nil (profile : Profile) (session : RecvSession) (jitter : Jitter) :
    rtpRecvDatagram profile session [] jitter = session := by
  rw [rtpRecvDatagram, if_pos rfl]

/-- A datagram that cannot be read is counted and changes no queue. -/
theorem rtpRecvDatagram_none (profile : Profile) (session : RecvSession) {msg : List Byte}
    (jitter : Jitter) (some_ : msg ≠ []) (unread : parsePacket msg = none) :
    rtpRecvDatagram profile session msg jitter = countBad session ∨
      rtpRecvDatagram profile session msg jitter = countBad (countPacket session msg) := by
  unfold rtpRecvDatagram rtpParse
  rw [if_neg some_]
  split
  · exact .inl rfl
  · right
    simp [unread]

theorem ne_nil_of_header {msg : List Byte} (long : rtpFixedHeaderSize ≤ msg.length) : msg ≠ [] := by
  rintro rfl
  exact absurd long (by decide)

theorem length_of_parsePacket {msg : List Byte} {rtp : Packet}
    (read : parsePacket msg = some rtp) : rtpFixedHeaderSize ≤ msg.length := by
  obtain ⟨-, -, whole⟩ := encode_of_parsePacket read
  rw [whole, Packet.encode, List.length_append, RtpHeader.length_image]
  omega

theorem rtpRecvDatagram_event {profile : Profile} {session : RecvSession} {msg : List Byte}
    {jitter : Jitter} {rtp : Packet} (read : parsePacket msg = some rtp)
    (event : (rtp.header.paytype.toNat : Int) = session.telephoneEventsPt) :
    rtpRecvDatagram profile session msg jitter =
      queueEvent (noteHeader (countPacket session msg) rtp) rtp := by
  have long := length_of_parsePacket read
  have noted : (noteHeader (countPacket session msg) rtp).telephoneEventsPt =
      session.telephoneEventsPt := rfl
  unfold rtpRecvDatagram rtpParse
  rw [if_neg (ne_nil_of_header long), if_neg (Nat.not_lt_of_le long)]
  simp only [read, noted, if_pos event]

theorem rtpRecvDatagram_media {profile : Profile} {session : RecvSession} {msg : List Byte}
    {jitter : Jitter} {rtp : Packet} (read : parsePacket msg = some rtp)
    (media : (rtp.header.paytype.toNat : Int) ≠ session.telephoneEventsPt) :
    rtpRecvDatagram profile session msg jitter =
      parseMedia profile (noteHeader (countPacket session msg) rtp) rtp jitter := by
  have long := length_of_parsePacket read
  have noted : (noteHeader (countPacket session msg) rtp).telephoneEventsPt =
      session.telephoneEventsPt := rfl
  unfold rtpRecvDatagram rtpParse
  rw [if_neg (ne_nil_of_header long), if_neg (Nat.not_lt_of_le long)]
  simp only [read, noted, if_neg media]

/-! ## Taking a packet -/

/-- The packet for a time stamp: the first condition of
`rtp_session_recvm_with_ts` while the session synchronises, and `rtp_getq`
afterwards. -/
def dequeue (session : RecvSession) (userTs : BitVec 32) : Option Packet × RecvSession :=
  if session.recvSync then
    match session.rq with
    | [] => (none, session)
    | oldest :: rest =>
        let newest := (oldest :: rest).getLast (List.cons_ne_nil _ _)
        if newest.ts - oldest.ts < session.jittCompTs then (none, session)
        else (some oldest, { session with
          rq := rest
          rcvTsOffset := oldest.ts
          rcvDiffTs := oldest.ts - userTs
          hwrcvDiffTs := oldest.ts - userTs + session.jittCompTs
          rcvLastRetTs := userTs
          rcvLastTs := oldest.ts
          recvSsrc := oldest.header.ssrc
          recvSync := false })
  else
    let ts := userTs + session.rcvDiffTs
    let result := rtpGetq session.rq ts
    (result.ret, { session with
      rq := result.queue
      rcvLastTs := ts
      stats := { session.stats with skipped := session.stats.skipped + result.rejected } })

/-- What `rtp_session_recvm_with_ts` hands out: the telephone event of the
signal and the media packet it returns. -/
structure Taken where
  event : Option Packet
  media : Option Packet

/-- The packet as it is returned, its time stamp compensated by an adapting
jitter control. -/
def patch (session : RecvSession) (rtp : Packet) : Packet :=
  if session.adaptive then
    { rtp with header := { rtp.header with
        timestamp := rtp.header.timestamp - session.correctiveSlide } }
  else rtp

/-- `msgdsize` -/
def Packet.size (rtp : Packet) : Nat := rtp.header.image.length + rtp.data.length

/-- The label `end:` of `rtp_session_recvm_with_ts`. -/
def returnPacket (session : RecvSession) : Option Packet → Option Packet × RecvSession
  | some rtp =>
      (some (patch session rtp), { session with
        recvPt := rtp.header.paytype.toNat
        stats := { session.stats with recv := session.stats.recv + Packet.size rtp } })
  | none =>
      (none, { session with
        stats := { session.stats with unavaillable := session.stats.unavaillable + 1 } })

/-- The start of `rtp_session_recvm_with_ts`; a telephone event leaves its
queue. -/
def ask (session : RecvSession) (userTs : BitVec 32) : RecvSession :=
  { session with rcvLastAppTs := userTs, tevRq := session.tevRq.tail }

/-- `rtp_session_recvm_with_ts` behind `rtp_recv`, which is the datagrams
before it. -/
def recvmWithTs (session : RecvSession) (userTs : BitVec 32) : Taken × RecvSession :=
  let found := dequeue (ask session userTs) userTs
  let result := returnPacket found.2 found.1
  (⟨session.tevRq.head?, result.1⟩, result.2)

/-! ## Runs -/

inductive Op where
  | datagram (msg : List Byte) (jitter : Jitter)
  | recvm (userTs : BitVec 32)

/-- One operation and what it hands out. -/
def recvExec (profile : Profile) (session : RecvSession) : Op → Option (Taken × RecvSession)
  | .datagram msg jitter => some (⟨none, none⟩, rtpRecvDatagram profile session msg jitter)
  | .recvm userTs => some (recvmWithTs session userTs)

abbrev History := List (Op × Taken)

/-- The media packets handed out, oldest first. -/
def delivered : History → List Packet
  | [] => []
  | (_, taken) :: before => delivered before ++ taken.media.toList

/-- The telephone events handed out, oldest first. -/
def signalled : History → List Packet
  | [] => []
  | (_, taken) :: before => signalled before ++ taken.event.toList

/-- The packets that arrived, oldest first. -/
def arrived : History → List Packet
  | [] => []
  | (.datagram msg _, _) :: before => arrived before ++ (parsePacket msg).toList
  | (.recvm _, _) :: before => arrived before

/-! ### What a question does -/

/-- The first packet a session returns starts its clocks. -/
def startClocks (session : RecvSession) (userTs : BitVec 32) (oldest : Packet) (rest : List Packet) :
    RecvSession :=
  { session with
    rq := rest
    rcvTsOffset := oldest.ts
    rcvDiffTs := oldest.ts - userTs
    hwrcvDiffTs := oldest.ts - userTs + session.jittCompTs
    rcvLastRetTs := userTs
    rcvLastTs := oldest.ts
    recvSsrc := oldest.header.ssrc
    recvSync := false }

inductive Dequeues (session : RecvSession) (userTs : BitVec 32) :
    Option Packet × RecvSession → Prop where
  | waits (sync : session.recvSync = true) : Dequeues session userTs (none, session)
  | starts (sync : session.recvSync = true) {oldest : Packet} {rest : List Packet}
      (rq : session.rq = oldest :: rest) :
      Dequeues session userTs (some oldest, startClocks session userTs oldest rest)
  | answers (sync : session.recvSync = false) {result : Getq}
      (gets : Gets session.rq (userTs + session.rcvDiffTs) result) :
      Dequeues session userTs (result.ret, { session with
        rq := result.queue
        rcvLastTs := userTs + session.rcvDiffTs
        stats := { session.stats with skipped := session.stats.skipped + result.rejected } })

theorem dequeue_dequeues (session : RecvSession) (userTs : BitVec 32) :
    Dequeues session userTs (dequeue session userTs) := by
  cases sync : session.recvSync with
  | true =>
      unfold dequeue
      rw [if_pos sync]
      split
      · exact .waits sync
      · rename_i oldest rest rq
        dsimp only
        split
        · exact .waits sync
        · exact .starts sync rq
  | false =>
      have answered : ¬ session.recvSync = true := by
        rw [sync]
        exact Bool.false_ne_true
      rw [dequeue, if_neg answered]
      exact .answers sync (rtpGetq_gets _ _)

theorem returnPacket_some {session : RecvSession} (rtp : Packet)
    (steady : session.adaptive = false) : (returnPacket session (some rtp)).1 = some rtp := by
  simp [returnPacket, patch, steady]

end DvsServer.Ortp.Receive
