import DvsServer.Ortp.Wire

/-!
# Sending a packet (`utils/ortp/src/rtpsession.c`)

`rtp_session_send_with_ts` puts a header in front of the caller's buffer and
sends both; the buffer is not copied.  Waiting for the scheduler comes before
any of this and changes none of the fields here.
-/

namespace DvsServer.Ortp

/-- The fields of `RtpSession` and its `RtpStream` that sending uses. -/
structure SendSession where
  sendPt : Int
  sendSsrc : BitVec 32
  sndSeq : BitVec 16
  sndLastTs : BitVec 32
  packetSent : Nat
  sent : Nat
deriving DecidableEq

/-- `rtp_session_new`, with the SSRC that `uint32_t_random` gave. -/
def rtpSessionNew (random : BitVec 32) : SendSession := ⟨0, random, 0, 0, 0, 0⟩

def rtpSessionSetSsrc (session : SendSession) (ssrc : BitVec 32) : SendSession :=
  { session with sendSsrc := ssrc }

def rtpSessionSetSendPayloadType (session : SendSession) (paytype : Int) : SendSession :=
  { session with sendPt := paytype }

/-- The header of a new packet; `paytype` has seven bits. -/
def newHeader (session : SendSession) : RtpHeader where
  cc := 0
  extbit := 0
  padbit := 0
  version := 2
  paytype := BitVec.ofInt 7 session.sendPt
  markbit := 0
  seqNumber := 0
  timestamp := 0
  ssrc := session.sendSsrc
  csrc := []

/-- `rtp_session_create_packet_with_data` -/
def createPacketWithData (session : SendSession) (payload : List Byte) : Message :=
  ⟨newHeader session, [payload]⟩

/-- `msgdsize` -/
def Message.size (m : Message) : Nat := m.header.image.length + m.blocks.flatten.length

/-- `rtp_session_sendm_with_ts` from the numbering of the packet on. -/
def sendmWithTs (session : SendSession) (m : Message) (timestamp : BitVec 32) :
    Message × SendSession :=
  ({ m with header := { m.header with seqNumber := session.sndSeq, timestamp } },
    { session with
      sndSeq := session.sndSeq + 1
      sndLastTs := timestamp
      sent := session.sent + m.size
      packetSent := session.packetSent + 1 })

/-- `rtp_session_send_with_ts` -/
def sendWithTs (session : SendSession) (payload : List Byte) (timestamp : BitVec 32) :
    Message × SendSession :=
  sendmWithTs session (createPacketWithData session payload) timestamp

/-- The packet that a receiver of the datagram sees. -/
def packetOf (session : SendSession) (payload : List Byte) (timestamp : BitVec 32) : Packet :=
  ⟨{ newHeader session with seqNumber := session.sndSeq, timestamp }, payload⟩

theorem parsePacket_sendWithTs (session : SendSession) (payload : List Byte)
    (timestamp : BitVec 32) :
    parsePacket (sendWithTs session payload timestamp).1.datagram =
      some (packetOf session payload timestamp) := by
  have read := parsePacket_datagram (m := (sendWithTs session payload timestamp).1) rfl rfl
    (by simp [sendWithTs, sendmWithTs, createPacketWithData, maxIov])
  rw [read]
  simp [sendWithTs, sendmWithTs, createPacketWithData, packetOf]

end DvsServer.Ortp
