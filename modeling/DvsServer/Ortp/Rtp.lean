import DvsServer.Lib.SerialNumber

/-!
# RTP packets (`utils/ortp/inc/ortp/rtp.h`)

The header with its bit fields, in host order, and the packet as the receiver
keeps it: one message block with the header, linked to one with the data.
-/

namespace DvsServer.Ortp

open DvsServer.Lib

abbrev Byte := BitVec 8

def rtpFixedHeaderSize : Nat := 12

structure RtpHeader where
  cc : BitVec 4
  extbit : BitVec 1
  padbit : BitVec 1
  version : BitVec 2
  paytype : BitVec 7
  markbit : BitVec 1
  seqNumber : BitVec 16
  timestamp : BitVec 32
  ssrc : BitVec 32
  csrc : List (BitVec 32)
deriving DecidableEq

structure Packet where
  header : RtpHeader
  data : List Byte
deriving DecidableEq

def Packet.seq (p : Packet) : BitVec 16 := p.header.seqNumber

def Packet.ts (p : Packet) : BitVec 32 := p.header.timestamp

def rtpSeqIsGreater (seq1 seq2 : BitVec 16) : Bool := SerialNumber.newer seq1 seq2

def rtpTimestampIsNewerThan (ts1 ts2 : BitVec 32) : Bool := SerialNumber.newer ts1 ts2

def rtpTimestampIsStrictlyNewerThan (ts1 ts2 : BitVec 32) : Bool :=
  rtpTimestampIsNewerThan ts1 ts2 && ts1 != ts2

end DvsServer.Ortp
