import DvsServer.Ortp.Rtcp
import Mathlib.Data.List.TakeWhile

/-!
# Leaving a session (`utils/ortp/src/rtcp.c`, `utils/ortp/src/rtpsession_ext.c`)

`rtp_session_bye` sends one datagram: a report, the source description and a
BYE packet with a reason.  The numbers in the report are inputs.  A message
block starts at an address that is a multiple of four, as `malloc` gives it.
-/

namespace DvsServer.Ortp.Rtcp

/-- `rtcp_common_header_init` -/
def commonHeader (packetType : Byte) (rc bytesLen : Nat) : List Byte :=
  [(2 : BitVec 2) ++ (0 : BitVec 1) ++ BitVec.ofNat 5 rc, packetType] ++
    store16 (htons (BitVec.ofNat 16 (bytesLen / 4 - 1)))

structure SenderInfo where
  ntpTimestampMsw : BitVec 32
  ntpTimestampLsw : BitVec 32
  rtpTimestamp : BitVec 32
  sendersPacketCount : BitVec 32
  sendersOctetCount : BitVec 32

structure ReportBlock where
  ssrc : BitVec 32
  fractionLost : Byte
  cumNumPacketLost : BitVec 24
  extHighSeqNumRec : BitVec 32
  interarrivalJitter : BitVec 32
  lsr : BitVec 32
  delaySncLastSr : BitVec 32

/-- `sender_info_init` -/
def SenderInfo.image (si : SenderInfo) : List Byte :=
  store32 (htonl si.ntpTimestampMsw) ++ store32 (htonl si.ntpTimestampLsw) ++
    store32 (htonl si.rtpTimestamp) ++ store32 (htonl si.sendersPacketCount) ++
    store32 (htonl si.sendersOctetCount)

/-- `report_block_init`; `hton24` puts the first byte first. -/
def ReportBlock.image (rb : ReportBlock) : List Byte :=
  store32 (htonl rb.ssrc) ++ [rb.fractionLost] ++
    [rb.cumNumPacketLost.extractLsb' 16 8, rb.cumNumPacketLost.extractLsb' 8 8,
      rb.cumNumPacketLost.extractLsb' 0 8] ++
    store32 (htonl rb.extHighSeqNumRec) ++ store32 (htonl rb.interarrivalJitter) ++
    store32 (htonl rb.lsr) ++ store32 (htonl rb.delaySncLastSr)

def rtcpSrInit (ssrc : BitVec 32) (si : SenderInfo) (rb : ReportBlock) : List Byte :=
  commonHeader rtcpSR 1 52 ++ store32 (htonl ssrc) ++ si.image ++ rb.image

def rtcpRrInit (ssrc : BitVec 32) (rb : ReportBlock) : List Byte :=
  commonHeader rtcpRR 1 32 ++ store32 (htonl ssrc) ++ rb.image

/-! ## Source descriptions -/

def rtcpSdesMaxStringSize : Nat := 255

def rtcpSdesChunkDefaultSize : Nat := 1024

/-- A block of memory and what has been written to it. -/
structure Block where
  size : Nat
  bytes : List Byte

/-- A message, apart from its last block. -/
structure Chunk where
  before : List Block
  current : Block

def Chunk.bytes (c : Chunk) : List Byte := c.before.flatMap Block.bytes ++ c.current.bytes

/-- A further block when the last one has no room for `n` bytes. -/
def Chunk.room (c : Chunk) (n size : Nat) : Chunk :=
  if c.current.size < c.current.bytes.length + n then
    ⟨c.before ++ [c.current], ⟨max c.current.size size, []⟩⟩
  else c

/-- `appendb` at the last block; the padding is counted where the data would
have gone. -/
def appendb (c : Chunk) (data : List Byte) (pad : Bool) : Chunk :=
  let padcnt := if pad then (4 - (c.current.bytes.length + data.length) % 4) % 4 else 0
  let c := c.room (data.length + padcnt) data.length
  { c with current.bytes := c.current.bytes ++ data ++ List.replicate padcnt 0 }

def sdesChunkNew (ssrc : BitVec 32) : Chunk :=
  ⟨[], ⟨rtcpSdesChunkDefaultSize, store32 (htonl ssrc)⟩⟩

def sdesChunkAppendItem (c : Chunk) (item : Byte × Option (List Byte)) : Chunk :=
  match item with
  | (_, none) => c
  | (sdesType, some content) =>
      let len := min content.length rtcpSdesMaxStringSize
      appendb (appendb c [sdesType, BitVec.ofNat 8 len] false) (content.take len) false

def sdesChunkPad (c : Chunk) : Chunk := appendb c [0] true

/-- What `rtp_session_set_source_description` is given. -/
structure SourceDescription where
  cname : Option (List Byte)
  name : Option (List Byte)
  email : Option (List Byte)
  phone : Option (List Byte)
  loc : Option (List Byte)
  tool : Option (List Byte)
  note : Option (List Byte)

/-- "Unknown" -/
def unknown : List Byte := [0x55, 0x6e, 0x6b, 0x6e, 0x6f, 0x77, 0x6e]

def SourceDescription.items (sd : SourceDescription) : List (Byte × Option (List Byte)) :=
  [(1, some (sd.cname.getD unknown)), (2, sd.name), (3, sd.email), (4, sd.phone), (5, sd.loc),
    (6, sd.tool), (7, sd.note)]

/-- `rtp_session_set_source_description` -/
def setSourceDescription (ssrc : BitVec 32) (sd : SourceDescription) : Chunk :=
  sdesChunkPad (sd.items.foldl sdesChunkAppendItem (sdesChunkNew ssrc))

/-- The source description with the header before it. -/
def sdesPacket (ssrc : BitVec 32) (sd : Chunk) : List Byte :=
  commonHeader rtcpSDES 1 (rtcpCommonHeaderSize + sd.bytes.length) ++
    (store32 (htonl ssrc) ++ sd.bytes.drop 4)

/-- `rtp_session_create_rtcp_sdes_packet` -/
def createRtcpSdesPacket (ssrc : BitVec 32) (sd : Chunk) (contributingSources : List Chunk) :
    Option (List Byte) :=
  match contributingSources with
  | [] => some (sdesPacket ssrc sd)
  -- the loop goes on to what follows the packet, not the source: dupmsg of a null pointer
  | _ :: _ => none

/-! ## Leaving -/

/-- `rtcp_create_simple_bye_packet`; the reason is a C string. -/
def createSimpleByePacket (ssrc : BitVec 32) (reason : Option (List Byte)) : List Byte :=
  match reason with
  | none => commonHeader rtcpBYE 1 rtcpByeHeaderSize ++ store32 (htonl ssrc)
  | some reason =>
      let strsize := min reason.length rtcpByeReasonMaxStringSize
      let strpadding := if 0 < strsize then 3 - strsize % 4 else 0
      let packetSize := if 0 < strsize then rtcpByeHeaderSize + 1 + strsize + strpadding
        else rtcpByeHeaderSize
      commonHeader rtcpBYE 1 packetSize ++ store32 (htonl ssrc) ++
        ([BitVec.ofNat 8 strsize] ++ reason.take strsize ++ List.replicate strpadding 0)

/-- The datagram of `rtp_session_bye` from a session that sends. -/
def rtpSessionBye (ssrc : BitVec 32) (si : SenderInfo) (rb : ReportBlock) (sd : Chunk)
    (contributingSources : List Chunk) (reason : Option (List Byte)) : Option (List Byte) :=
  (createRtcpSdesPacket ssrc sd contributingSources).map fun sdes =>
    rtcpSrInit ssrc si rb ++ sdes ++ createSimpleByePacket ssrc reason

/-- The datagram of `rtp_session_bye` from a session that only receives. -/
def rtpSessionByeRecvOnly (ssrc : BitVec 32) (rb : ReportBlock) (reason : Option (List Byte)) :
    List Byte :=
  rtcpRrInit ssrc rb ++ createSimpleByePacket ssrc reason

def rtcpMaxRecvBufsize : Nat := 1024

/-- `rtcp_recv` of one datagram, with what lies behind it in memory. -/
def rtcpRecv {τ : Type} (rcvTime : τ) (datagram : List Byte) (behind : Nat → Byte)
    (session : RtcpSession τ) : Option (Except (Overrun τ) (Parse τ)) :=
  let msg := datagram.take rtcpMaxRecvBufsize
  rtcpParse rcvTime msg.length ⟨fun i => msg.getD i (behind i), session, [], []⟩

/-! ## The length of a description -/

/-- The bytes that an item takes. -/
def itemSize : Byte × Option (List Byte) → Nat
  | (_, none) => 0
  | (_, some content) => 2 + min content.length rtcpSdesMaxStringSize

theorem Chunk.bytes_room (c : Chunk) (n size : Nat) : (c.room n size).bytes = c.bytes := by
  unfold Chunk.room
  split
  · simp [Chunk.bytes]
  · rfl

theorem Chunk.room_of_fits {c : Chunk} {n : Nat} (fits : c.current.bytes.length + n ≤ c.current.size)
    (size : Nat) : c.room n size = c :=
  if_neg (Nat.not_lt.mpr fits)

theorem length_appendb (c : Chunk) (data : List Byte) :
    (appendb c data false).bytes.length = c.bytes.length + data.length := by
  rw [← c.bytes_room (data.length + 0) data.length]
  simp [appendb, Chunk.bytes, Nat.add_assoc]

theorem length_appendb_le (c : Chunk) (data : List Byte) (pad : Bool) :
    c.bytes.length + data.length ≤ (appendb c data pad).bytes.length := by
  unfold appendb
  dsimp only
  generalize (if pad then (4 - (c.current.bytes.length + data.length) % 4) % 4 else 0) = padcnt
  rw [← c.bytes_room (data.length + padcnt) data.length]
  simp [Chunk.bytes, Nat.add_assoc]

theorem length_sdesChunkAppendItem (c : Chunk) (item : Byte × Option (List Byte)) :
    (sdesChunkAppendItem c item).bytes.length = c.bytes.length + itemSize item := by
  obtain ⟨sdesType, content⟩ := item
  cases content with
  | none => rfl
  | some content =>
      have taken : (content.take (min content.length rtcpSdesMaxStringSize)).length =
          min content.length rtcpSdesMaxStringSize := by
        rw [List.length_take]
        omega
      have header : ([sdesType, BitVec.ofNat 8 (min content.length rtcpSdesMaxStringSize)] :
          List Byte).length = 2 := rfl
      rw [sdesChunkAppendItem, length_appendb, length_appendb, taken, header, itemSize]
      omega

theorem length_items (items : List (Byte × Option (List Byte))) (c : Chunk) :
    (items.foldl sdesChunkAppendItem c).bytes.length =
      c.bytes.length + (items.map itemSize).sum := by
  induction items generalizing c with
  | nil => rfl
  | cons item items ih =>
      rw [List.foldl_cons, ih, length_sdesChunkAppendItem, List.map_cons, List.sum_cons]
      omega

/-- The chunk is one block so far. -/
structure OneBlock (c : Chunk) : Prop where
  before : c.before = []
  size : c.current.size = rtcpSdesChunkDefaultSize

theorem OneBlock.bytes {c : Chunk} (one : OneBlock c) : c.bytes = c.current.bytes := by
  rw [Chunk.bytes, one.before]
  rfl

theorem OneBlock.appendb {c : Chunk} (one : OneBlock c) {data : List Byte}
    (fits : c.bytes.length + data.length ≤ 1024) : OneBlock (appendb c data false) := by
  have there : c.room (data.length + 0) data.length = c := by
    apply Chunk.room_of_fits
    rw [one.size, ← one.bytes]
    exact fits
  unfold Rtcp.appendb
  simp only [Bool.false_eq_true, if_false, there]
  exact ⟨one.before, one.size⟩

theorem OneBlock.item {c : Chunk} (one : OneBlock c) {item : Byte × Option (List Byte)}
    (fits : c.bytes.length + itemSize item ≤ 1024) : OneBlock (sdesChunkAppendItem c item) := by
  obtain ⟨sdesType, content⟩ := item
  cases content with
  | none => exact one
  | some content =>
      rw [itemSize] at fits
      have header : ([sdesType, BitVec.ofNat 8 (min content.length rtcpSdesMaxStringSize)] :
          List Byte).length = 2 := rfl
      apply OneBlock.appendb
      · apply one.appendb
        rw [header]
        omega
      · rw [length_appendb, header, List.length_take]
        omega

theorem OneBlock.items {items : List (Byte × Option (List Byte))} {c : Chunk} (one : OneBlock c)
    (fits : c.bytes.length + (items.map itemSize).sum ≤ 1024) :
    OneBlock (items.foldl sdesChunkAppendItem c) := by
  induction items generalizing c with
  | nil => exact one
  | cons item items ih =>
      rw [List.map_cons, List.sum_cons] at fits
      apply ih
      · exact one.item (by omega)
      · rw [length_sdesChunkAppendItem]
        omega

/-- The padding fills the last word of a chunk that is one block. -/
theorem OneBlock.sdesChunkPad {c : Chunk} (one : OneBlock c) (fits : c.bytes.length + 1 ≤ 1024) :
    (sdesChunkPad c).bytes.length % 4 = 0 := by
  have there : c.room (([0] : List Byte).length +
      (4 - (c.current.bytes.length + ([0] : List Byte).length) % 4) % 4) ([0] : List Byte).length =
      c := by
    apply Chunk.room_of_fits
    rw [one.size, ← one.bytes, List.length_singleton]
    unfold rtcpSdesChunkDefaultSize
    omega
  unfold Rtcp.sdesChunkPad Rtcp.appendb
  simp only [if_true, there]
  rw [Chunk.bytes, one.before]
  simp only [List.flatMap_nil, List.nil_append, List.length_append, List.length_replicate,
    List.length_singleton]
  omega

/-- A description whose chunk is shorter than its first block is whole words. -/
theorem setSourceDescription_words (ssrc : BitVec 32) (sd : SourceDescription)
    (fits : (setSourceDescription ssrc sd).bytes.length ≤ 1024) :
    (setSourceDescription ssrc sd).bytes.length % 4 = 0 := by
  have atLeast := length_appendb_le
    (sd.items.foldl sdesChunkAppendItem (sdesChunkNew ssrc)) [0] true
  have length : (sd.items.foldl sdesChunkAppendItem (sdesChunkNew ssrc)).bytes.length + 1 ≤ 1024 :=
    atLeast.trans fits
  have start : OneBlock (sdesChunkNew ssrc) := ⟨rfl, rfl⟩
  apply OneBlock.sdesChunkPad
  · apply start.items
    rw [← length_items]
    omega
  · exact length

/-! ## What lies in memory -/

/-- The bytes lie in memory from `off` on. -/
def Lies (mem : Nat → Byte) (off : Nat) (bytes : List Byte) : Prop :=
  ∀ i (inside : i < bytes.length), mem (off + i) = bytes[i]

namespace Lies

variable {mem : Nat → Byte} {off : Nat} {bytes first second : List Byte}

theorem left (lies : Lies mem off (first ++ second)) : Lies mem off first := by
  intro i inside
  rw [lies i (by rw [List.length_append]; omega), List.getElem_append_left inside]

theorem right (lies : Lies mem off (first ++ second)) : Lies mem (off + first.length) second := by
  intro i inside
  rw [Nat.add_assoc, lies (first.length + i) (by rw [List.length_append]; omega),
    List.getElem_append_right (by omega)]
  simp

/-- What lies further on stays when nothing there changes. -/
theorem of_same {mem' : Nat → Byte} (lies : Lies mem off bytes)
    (same : ∀ i, off ≤ i → mem' i = mem i) : Lies mem' off bytes := by
  intro i inside
  rw [same (off + i) (by omega)]
  exact lies i inside

theorem read32 {word : BitVec 32} (lies : Lies mem off (store32 word)) :
    Rtcp.read32 mem off = word := by
  have b0 := lies 0 (by simp [store32])
  have b1 := lies 1 (by simp [store32])
  have b2 := lies 2 (by simp [store32])
  have b3 := lies 3 (by simp [store32])
  simp only [store32, List.getElem_cons_zero, List.getElem_cons_succ, Nat.add_zero] at b0 b1 b2 b3
  rw [Rtcp.read32, b0, b1, b2, b3, load32_store32]

theorem read16 {word : BitVec 16} (lies : Lies mem off (store16 word)) :
    Rtcp.read16 mem off = word := by
  have b0 := lies 0 (by simp [store16])
  have b1 := lies 1 (by simp [store16])
  simp only [store16, List.getElem_cons_zero, List.getElem_cons_succ, Nat.add_zero] at b0 b1
  rw [Rtcp.read16, b0, b1, load16_store16]

end Lies

theorem swapBytes_of_outside {mem : Nat → Byte} {off n i : Nat} (outside : i < off ∨ off + n ≤ i) :
    swapBytes mem off n i = mem i := by
  unfold swapBytes
  rw [if_neg (by omega)]

theorem read16_swapBytes (mem : Nat → Byte) (off : Nat) :
    read16 (swapBytes mem off 2) off = ntohs (read16 mem off) := by
  have first : swapBytes mem off 2 off = mem (off + 1) := by
    unfold swapBytes
    rw [if_pos (by omega)]
    congr 1
    omega
  have second : swapBytes mem off 2 (off + 1) = mem off := by
    unfold swapBytes
    rw [if_pos (by omega)]
    congr 1
    omega
  rw [read16, first, second]
  unfold read16 load16 ntohs htons
  apply BitVec.eq_of_getLsbD_eq
  intro i hi
  simp only [BitVec.getLsbD_append, BitVec.getLsbD_extractLsb']
  grind

/-- What the parser reads off a header. -/
structure Header (mem : Nat → Byte) (off : Nat) (packetType : Byte) (rc size : Nat) : Prop where
  version : versionOf (mem off) = 2
  rc_eq : rcOf (mem off) = rc
  packetType_eq : mem (off + 1) = packetType
  length : read16 mem (off + 2) = htons (BitVec.ofNat 16 (size / 4 - 1))

theorem Header.of_lies {mem : Nat → Byte} {off rc size : Nat} {packetType : Byte} (small : rc < 32)
    (lies : Lies mem off (commonHeader packetType rc size)) : Header mem off packetType rc size := by
  have first : mem off = (2 : BitVec 2) ++ (0 : BitVec 1) ++ BitVec.ofNat 5 rc :=
    lies 0 (by simp [commonHeader])
  refine ⟨?_, ?_, lies 1 (by simp [commonHeader]), lies.right.read16⟩
  · rw [first]
    unfold versionOf
    apply BitVec.eq_of_getLsbD_eq
    intro i hi
    simp only [BitVec.getLsbD_append, BitVec.getLsbD_extractLsb']
    grind
  · rw [first]
    have low : ((2 : BitVec 2) ++ (0 : BitVec 1) ++ BitVec.ofNat 5 rc).extractLsb' 0 5 =
        BitVec.ofNat 5 rc := by
      apply BitVec.eq_of_getLsbD_eq
      intro i hi
      simp only [BitVec.getLsbD_append, BitVec.getLsbD_extractLsb']
      grind
    rw [rcOf, low, BitVec.toNat_ofNat]
    exact Nat.mod_eq_of_lt small

/-! ## One packet at a time -/

variable {τ : Type}

theorem Header.pkSize {mem : Nat → Byte} {off rc size : Nat} {packetType : Byte}
    (header : Header mem off packetType rc size) (big : 4 ≤ size) (small : size / 4 ≤ 2 ^ 16) :
    Rtcp.pkSize (swapBytes mem (off + 2) 2) off = size / 4 * 4 := by
  have low : size / 4 - 1 < 2 ^ 16 := by omega
  rw [Rtcp.pkSize, read16_swapBytes, header.length, ntohs_htons, BitVec.toNat_ofNat,
    Nat.mod_eq_of_lt low]
  omega

/-- The parser behind the header of a packet: its length is in host order. -/
def entered (p : Parse τ) (off : Nat) : Parse τ := (p.touch (.header off)).swap (off + 2) 2

/-- The walk goes on behind a packet with a proper header that was parsed. -/
theorem rtcpLoop_packet (rcvTime : τ) {fuel off msgsize rc size : Nat} {packetType : Byte}
    {p q : Parse τ} (header : Header p.mem off packetType rc size) (big : 4 ≤ size)
    (words : size % 4 = 0) (small : size ≤ 2 ^ 18) (fits : size ≤ msgsize)
    (parsed : parseOne rcvTime off msgsize size (entered p off) = .ok (q, true)) :
    rtcpLoop rcvTime (fuel + 1) off msgsize p =
      rtcpLoop rcvTime fuel (off + size) (msgsize - size) q := by
  have whole : size / 4 * 4 = size := by omega
  have version : versionOf ((p.touch (.header off)).mem off) = 2 := header.version
  have enough : ¬ msgsize < rtcpCommonHeaderSize := by
    unfold rtcpCommonHeaderSize
    omega
  have size_eq : Rtcp.pkSize (entered p off).mem off = size :=
    (header.pkSize big (by omega)).trans whole
  unfold entered at size_eq parsed
  rw [rtcpLoop, if_neg enough]
  dsimp only
  rw [if_neg (not_not.mpr version), size_eq, if_neg (Nat.not_lt.mpr fits), parsed]

/-- The parser has gone from `p` to `q`, keeping what lies from `stop` on. -/
structure Goes (p q : Parse τ) (stop : Nat) (session : RtcpSession τ)
    (heard : List (Option (List Byte))) : Prop where
  mem : ∀ i, stop ≤ i → q.mem i = p.mem i
  session_eq : q.session = session
  byes : q.byes = heard ++ p.byes

theorem reportBlockParse_goes (off : Nat) (p : Parse τ) :
    Goes p (reportBlockParse off p) (off + 24) p.session [] := by
  unfold reportBlockParse
  dsimp only
  split
  · refine ⟨?_, rfl, rfl⟩
    intro i behind
    exact swapBytes_of_outside (by omega)
  · refine ⟨?_, rfl, rfl⟩
    intro i behind
    simp only [Parse.swap, Parse.touch]
    repeat rw [swapBytes_of_outside (by omega)]

theorem reportBlocks_goes (rc off : Nat) (p : Parse τ) :
    Goes p (reportBlocks rc off p) (off + 24 * rc) p.session [] := by
  induction rc generalizing off p with
  | zero => exact ⟨fun _ _ => rfl, rfl, rfl⟩
  | succ rc ih =>
      have first := reportBlockParse_goes off p
      have rest := ih (off + 24) (reportBlockParse off p)
      refine ⟨?_, ?_, ?_⟩
      · intro i behind
        exact (rest.mem i (by omega)).trans (first.mem i (by omega))
      · exact rest.session_eq.trans first.session_eq
      · exact rest.byes.trans first.byes

/-- The time in the middle of the NTP time stamp. -/
def SenderInfo.middle (si : SenderInfo) : BitVec 32 :=
  (si.ntpTimestampMsw <<< 16) ||| (si.ntpTimestampLsw >>> 16)

theorem length_commonHeader (packetType : Byte) (rc size : Nat) :
    (commonHeader packetType rc size).length = 4 := rfl

theorem length_rtcpSrInit (ssrc : BitVec 32) (si : SenderInfo) (rb : ReportBlock) :
    (rtcpSrInit ssrc si rb).length = 52 := rfl

theorem length_rtcpRrInit (ssrc : BitVec 32) (rb : ReportBlock) :
    (rtcpRrInit ssrc rb).length = 32 := rfl

/-- Turning the length leaves all else alone. -/
theorem entered_mem (p : Parse τ) {off i : Nat} (outside : i < off + 2 ∨ off + 4 ≤ i) :
    (entered p off).mem i = p.mem i :=
  swapBytes_of_outside (by omega)

theorem entered_read32 (p : Parse τ) {off i : Nat} (behind : off + 4 ≤ i) :
    read32 (entered p off).mem i = read32 p.mem i := by
  simp only [read32]
  rw [entered_mem p (by omega), entered_mem p (by omega), entered_mem p (by omega),
    entered_mem p (by omega)]

/-- What is kept behind a packet was kept on entering it. -/
theorem Goes.of_entered {p q : Parse τ} {off stop : Nat} {session : RtcpSession τ}
    {heard : List (Option (List Byte))} (goes : Goes (entered p off) q stop session heard)
    (behind : off + 4 ≤ stop) : Goes p q stop session heard := by
  refine ⟨?_, goes.session_eq, goes.byes⟩
  intro i further
  rw [goes.mem i further]
  exact entered_mem p (by omega)

theorem parseSR_goes (rcvTime : τ) {off msgsize : Nat} {p : Parse τ} {msw lsw : BitVec 32}
    (one : rcOf (p.mem off) = 1)
    (known : ntohl (read32 p.mem (off + 4)) = p.session.recvSsrc)
    (mswThere : read32 p.mem (off + 8) = htonl msw) (lswThere : read32 p.mem (off + 12) = htonl lsw)
    (fits : 52 ≤ msgsize) :
    ∃ q, parseSR rcvTime off msgsize p = (q, true) ∧
      Goes p q (off + 52) { p.session with
        lastRcvSRTs := (msw <<< 16) ||| (lsw >>> 16), lastRcvSRTime := rcvTime } [] := by
  have long : ¬ msgsize < rtcpCommonHeaderSize + rtcpSsrcFieldSize + rtcpSenderInfoSize +
      rtcpReportBlockSize * 1 := by
    simp only [rtcpCommonHeaderSize, rtcpSsrcFieldSize, rtcpSenderInfoSize, rtcpReportBlockSize]
    omega
  unfold parseSR
  simp only [one, Parse.touch, known, ne_eq, not_true_eq_false, if_false, long, mswThere, lswThere,
    ntohl_htonl]
  refine ⟨_, rfl, ?_⟩
  have blocks := fun p : Parse τ => reportBlocks_goes 1 (off + 28) p
  refine ⟨?_, ?_, ?_⟩
  · intro i behind
    rw [(blocks _).mem i (by omega)]
    simp only [Parse.swap]
    repeat rw [swapBytes_of_outside (by omega)]
  · exact (blocks _).session_eq
  · exact (blocks _).byes

/-- A sender report from the expected source. -/
theorem loop_sr (rcvTime : τ) (fuel msgsize : Nat) {off : Nat} {p : Parse τ} {ssrc : BitVec 32}
    {si : SenderInfo} {rb : ReportBlock} (lies : Lies p.mem off (rtcpSrInit ssrc si rb))
    (known : p.session.recvSsrc = ssrc) (fits : 52 ≤ msgsize) :
    ∃ q, rtcpLoop rcvTime (fuel + 1) off msgsize p =
        rtcpLoop rcvTime fuel (off + 52) (msgsize - 52) q ∧
      Goes p q (off + 52)
        { p.session with lastRcvSRTs := si.middle, lastRcvSRTime := rcvTime } [] := by
  have header : Header p.mem off rtcpSR 1 52 := .of_lies (by decide) lies.left.left.left
  have ssrcThere : read32 p.mem (off + 4) = htonl ssrc := lies.left.left.right.read32
  have info : Lies p.mem (off + 8) si.image := lies.left.right
  have msw : read32 p.mem (off + 8) = htonl si.ntpTimestampMsw := info.left.left.left.left.read32
  have lsw : read32 p.mem (off + 12) = htonl si.ntpTimestampLsw := info.left.left.left.right.read32
  have one : rcOf ((entered p off).mem off) = 1 := by
    rw [entered_mem p (by omega)]
    exact header.rc_eq
  have packetType : (entered p off).mem (off + 1) = rtcpSR := by
    rw [entered_mem p (by omega)]
    exact header.packetType_eq
  have source : ntohl (read32 (entered p off).mem (off + 4)) = (entered p off).session.recvSsrc := by
    rw [entered_read32 p (by omega), ssrcThere, ntohl_htonl]
    exact known.symm
  obtain ⟨q, parsed, goes⟩ := parseSR_goes rcvTime one source
    ((entered_read32 p (by omega)).trans msw) ((entered_read32 p (by omega)).trans lsw) fits
  refine ⟨q, ?_, goes.of_entered (by omega)⟩
  refine rtcpLoop_packet rcvTime header (by decide) (by decide) (by decide) fits ?_
  rw [parseOne, if_pos packetType, parsed]

theorem parseRR_goes {off msgsize : Nat} {p : Parse τ} {ssrc : BitVec 32}
    (one : rcOf (p.mem off) = 1) (source : ntohl (read32 p.mem (off + 4)) = ssrc)
    (known : p.session.recvSsrc = ssrc ∨ p.session.recvSsrc = 0) (fits : 32 ≤ msgsize) :
    ∃ q, parseRR off msgsize p = (q, true) ∧
      Goes p q (off + 32) { p.session with recvSsrc := ssrc } [] := by
  have long : ¬ msgsize < rtcpCommonHeaderSize + rtcpSsrcFieldSize + rtcpReportBlockSize * 1 := by
    simp only [rtcpCommonHeaderSize, rtcpSsrcFieldSize, rtcpReportBlockSize]
    omega
  have stranger : ¬ (p.session.recvSsrc ≠ 0 ∧ ssrc ≠ p.session.recvSsrc) := by
    rintro ⟨some_, differs⟩
    rcases known with same | none_
    · exact differs same.symm
    · exact some_ none_
  have touched : (p.touch (.ssrc off)).session = p.session := rfl
  have blocks := fun p : Parse τ => reportBlocks_goes 1 (off + 8) p
  unfold parseRR
  dsimp only
  have mem : (p.touch (.ssrc off)).mem = p.mem := rfl
  rw [touched, mem, one, source, if_neg stranger, if_neg long]
  refine ⟨_, rfl, ?_⟩
  split
  · exact ⟨(blocks _).mem, (blocks _).session_eq, (blocks _).byes⟩
  · rename_i some_
    refine ⟨(blocks _).mem, ?_, (blocks _).byes⟩
    rw [(blocks _).session_eq, ← known.resolve_right some_]
    rfl

/-- A receiver report, from the expected source or from the first one. -/
theorem loop_rr (rcvTime : τ) (fuel msgsize : Nat) {off : Nat} {p : Parse τ} {ssrc : BitVec 32}
    {rb : ReportBlock} (lies : Lies p.mem off (rtcpRrInit ssrc rb))
    (known : p.session.recvSsrc = ssrc ∨ p.session.recvSsrc = 0) (fits : 32 ≤ msgsize) :
    ∃ q, rtcpLoop rcvTime (fuel + 1) off msgsize p =
        rtcpLoop rcvTime fuel (off + 32) (msgsize - 32) q ∧
      Goes p q (off + 32) { p.session with recvSsrc := ssrc } [] := by
  have header : Header p.mem off rtcpRR 1 32 := .of_lies (by decide) lies.left.left
  have ssrcThere : read32 p.mem (off + 4) = htonl ssrc := lies.left.right.read32
  have one : rcOf ((entered p off).mem off) = 1 := by
    rw [entered_mem p (by omega)]
    exact header.rc_eq
  have packetType : (entered p off).mem (off + 1) = rtcpRR := by
    rw [entered_mem p (by omega)]
    exact header.packetType_eq
  have source : ntohl (read32 (entered p off).mem (off + 4)) = ssrc := by
    rw [entered_read32 p (by omega), ssrcThere, ntohl_htonl]
  obtain ⟨q, parsed, goes⟩ := parseRR_goes (p := entered p off) one source known fits
  refine ⟨q, ?_, goes.of_entered (by omega)⟩
  refine rtcpLoop_packet rcvTime header (by decide) (by decide) (by decide) fits ?_
  rw [parseOne, if_neg (by rw [packetType]; decide), if_pos packetType, parsed]

/-- A source description of whole words is passed over. -/
theorem loop_sdes (rcvTime : τ) (fuel msgsize : Nat) {off : Nat} {p : Parse τ} {ssrc : BitVec 32}
    {sd : Chunk} (lies : Lies p.mem off (sdesPacket ssrc sd))
    (words : sd.bytes.length % 4 = 0) (small : sd.bytes.length < 2 ^ 18)
    (fits : 4 + sd.bytes.length ≤ msgsize) :
    ∃ q, rtcpLoop rcvTime (fuel + 1) off msgsize p =
        rtcpLoop rcvTime fuel (off + (4 + sd.bytes.length)) (msgsize - (4 + sd.bytes.length)) q ∧
      Goes p q (off + (4 + sd.bytes.length)) p.session [] := by
  have header : Header p.mem off rtcpSDES 1 (4 + sd.bytes.length) := .of_lies (by decide) lies.left
  have packetType : (entered p off).mem (off + 1) = rtcpSDES := by
    rw [entered_mem p (by omega)]
    exact header.packetType_eq
  refine ⟨entered p off, ?_, ?_⟩
  · refine rtcpLoop_packet rcvTime header (by omega) (by omega) (by omega) fits ?_
    rw [parseOne, if_neg (by rw [packetType]; decide), if_neg (by rw [packetType]; decide),
      if_pos packetType]
  · have same : Goes (entered p off) (entered p off) (off + (4 + sd.bytes.length)) p.session [] :=
      ⟨fun _ _ => rfl, rfl, rfl⟩
    exact same.of_entered (by omega)

/-- The reason as the callbacks get it. -/
def heardReason : Option (List Byte) → Option (List Byte)
  | none => none
  | some reason => if reason = [] then none else some (reason.take rtcpByeReasonMaxStringSize)

/-- The packet has a zero byte behind the reason. -/
def Padded (reason : Option (List Byte)) : Prop :=
  ∀ text, reason = some text → min text.length rtcpByeReasonMaxStringSize % 4 ≠ 3

theorem strlen_lies {mem : Nat → Byte} {stop off : Nat} {text : List Byte}
    (lies : Lies mem off text) (noZero : 0 ∉ text) (zero : mem (off + text.length) = 0)
    (inside : off + text.length < stop) : strlen mem stop off = some text.length := by
  rw [strlen, List.find?_range_eq_some]
  refine ⟨decide_eq_true zero, List.mem_range.mpr (by omega), ?_⟩
  intro i before
  have there := lies i before
  simp only [Bool.not_eq_true', decide_eq_false_iff_not, there]
  intro nothing
  rw [← nothing] at noZero
  exact noZero (List.getElem_mem before)

/-- A string that ends in the datagram is copied whole. -/
theorem ortpStrndup_lies {mem : Nat → Byte} {stop off : Nat} {text : List Byte}
    (lies : Lies mem off text) (noZero : 0 ∉ text) (zero : mem (off + text.length) = 0)
    (inside : off + text.length < stop) :
    ortpStrndup mem stop off text.length = some (text.length, text) := by
  have copied : ((List.range text.length).map fun i => mem (off + i)) = text := by
    apply List.ext_getElem
    · simp
    · intro i inside inText
      simp [lies i inText]
  rw [ortpStrndup, strlen_lies lies noZero zero inside, Option.bind_some,
    if_pos (Nat.le_succ _), Nat.min_self, copied]

/-- The reason is read, and nothing else changes. -/
def Reads (p : Parse τ) (stop off space : Nat) (heard : Option (List Byte)) : Prop :=
  ∃ q, byeReason stop off space p = .ok (q, heard) ∧ q.mem = p.mem ∧ q.session = p.session ∧
    q.byes = p.byes

/-- There is none where there is no room for one. -/
theorem reads_none {stop off space : Nat} (small : space ≤ 1) (p : Parse τ) :
    Reads p stop off space none := by
  refine ⟨p, ?_, rfl, rfl, rfl⟩
  rw [byeReason, if_neg (by omega)]

theorem reads_some {stop off space : Nat} {text : List Byte} {p : Parse τ}
    (length : p.mem off = BitVec.ofNat 8 text.length) (short : text.length ≤ 255)
    (lies : Lies p.mem (off + 1) text) (noZero : 0 ∉ text)
    (zero : p.mem (off + 1 + text.length) = 0) (inside : off + 1 + text.length < stop)
    (fits : text.length + 1 ≤ space) (some_ : text ≠ []) : Reads p stop off space (some text) := by
  have longer : 0 < text.length := List.length_pos_iff.mpr some_
  have len : (p.mem off).toNat = text.length := by
    rw [length, BitVec.toNat_ofNat]
    exact Nat.mod_eq_of_lt (by omega)
  have touched : (p.touch (.reasonLength off)).mem = p.mem := rfl
  refine ⟨(p.touch (.reasonLength off)).touch (.reason (off + 1) text.length), ?_, rfl, rfl, rfl⟩
  rw [byeReason, if_pos (by omega)]
  dsimp only
  rw [touched, len, if_pos (by omega), ortpStrndup_lies lies noZero zero inside]

theorem emitBye_goes {stop off space : Nat} {p : Parse τ} {heard : Option (List Byte)}
    (reads : 0 < p.session.onRtcpBye → Reads p stop off space heard) (behind : Nat) :
    ∃ q, emitBye stop off space p true = .ok q ∧
      Goes p q behind p.session (List.replicate p.session.onRtcpBye heard) := by
  unfold emitBye
  split
  · rename_i loud
    obtain ⟨q, read, mem, session, byes⟩ := reads (by simpa using loud)
    rw [read]
    refine ⟨_, rfl, fun i _ => congrFun mem i, session, ?_⟩
    dsimp only
    rw [session, byes]
  · rename_i silent
    have none_ : p.session.onRtcpBye = 0 := by simpa using silent
    rw [none_]
    exact ⟨p, rfl, fun _ _ => rfl, rfl, rfl⟩

theorem parseBYE_goes {stop off pkSize : Nat} {p : Parse τ} {heard : Option (List Byte)}
    (one : rcOf (p.mem off) = 1) (known : ntohl (read32 p.mem (off + 4)) = p.session.recvSsrc)
    (enough : 8 ≤ pkSize)
    (reads : 0 < p.session.onRtcpBye →
      Reads (p.touch (.byeSsrc (off + 4))) stop (off + 8) (pkSize - 8) heard) :
    ∃ q, parseBYE stop off pkSize p = .ok (q, true) ∧
      Goes p q (off + pkSize) p.session (List.replicate p.session.onRtcpBye heard) := by
  have matches_ : byeMatches 1 (off + 4) p = (p.touch (.byeSsrc (off + 4)), true) := by
    rw [byeMatches]
    exact if_pos known
  have long : ¬ pkSize < rtcpCommonHeaderSize + 1 * 4 := by
    unfold rtcpCommonHeaderSize
    omega
  have space : pkSize - rtcpCommonHeaderSize - 1 * 4 = pkSize - 8 := by
    unfold rtcpCommonHeaderSize
    omega
  obtain ⟨q, emitted, goes⟩ := emitBye_goes (p := p.touch (.byeSsrc (off + 4))) reads (off + pkSize)
  refine ⟨q, ?_, ⟨goes.mem, goes.session_eq, goes.byes⟩⟩
  unfold parseBYE
  dsimp only
  rw [one, if_neg long, space]
  change (emitBye stop (off + 8) (pkSize - 8) (byeMatches 1 (off + 4) p).1
    (byeMatches 1 (off + 4) p).2).map _ = _
  rw [matches_, emitted]
  rfl

/-- A BYE packet of whole words from the expected source. -/
theorem loop_bye_of_header (rcvTime : τ) (fuel msgsize : Nat) {off size : Nat} {p : Parse τ}
    {heard : Option (List Byte)} (header : Header p.mem off rtcpBYE 1 size)
    (known : ntohl (read32 p.mem (off + 4)) = p.session.recvSsrc) (enough : 8 ≤ size)
    (words : size % 4 = 0) (small : size ≤ 2 ^ 18) (fits : size ≤ msgsize)
    (reads : 0 < p.session.onRtcpBye →
      Reads ((entered p off).touch (.byeSsrc (off + 4))) (off + msgsize) (off + 8) (size - 8) heard) :
    ∃ q, rtcpLoop rcvTime (fuel + 1) off msgsize p =
        rtcpLoop rcvTime fuel (off + size) (msgsize - size) q ∧
      Goes p q (off + size) p.session (List.replicate p.session.onRtcpBye heard) := by
  have one : rcOf ((entered p off).mem off) = 1 := by
    rw [entered_mem p (by omega)]
    exact header.rc_eq
  have packetType : (entered p off).mem (off + 1) = rtcpBYE := by
    rw [entered_mem p (by omega)]
    exact header.packetType_eq
  have source : ntohl (read32 (entered p off).mem (off + 4)) = (entered p off).session.recvSsrc := by
    rw [entered_read32 p (by omega)]
    exact known
  obtain ⟨q, parsed, goes⟩ := parseBYE_goes (p := entered p off) one source enough reads
  refine ⟨q, ?_, goes.of_entered (by omega)⟩
  refine rtcpLoop_packet rcvTime header (by omega) words small fits ?_
  rw [parseOne, if_neg (by rw [packetType]; decide), if_neg (by rw [packetType]; decide),
    if_neg (by rw [packetType]; decide), if_pos packetType, parsed]

theorem length_createSimpleByePacket (ssrc : BitVec 32) {text : List Byte} (some_ : text ≠ []) :
    (createSimpleByePacket ssrc (some text)).length =
      12 + min text.length 255 - min text.length 255 % 4 := by
  have longer : 0 < text.length := List.length_pos_iff.mpr some_
  have short : 0 < min text.length rtcpByeReasonMaxStringSize := by
    unfold rtcpByeReasonMaxStringSize
    omega
  simp only [createSimpleByePacket, if_pos short, List.length_append, length_commonHeader,
    List.length_replicate, List.length_take, List.length_cons, List.length_nil, store32]
  unfold rtcpByeReasonMaxStringSize
  omega

/-- A BYE packet with a reason. -/
theorem loop_bye_text (rcvTime : τ) (fuel : Nat) {off : Nat} {p : Parse τ} {ssrc : BitVec 32}
    {text : List Byte} (lies : Lies p.mem off (createSimpleByePacket ssrc (some text)))
    (known : p.session.recvSsrc = ssrc) (noZero : 0 ∉ text) (some_ : text ≠ [])
    (padded : 0 < p.session.onRtcpBye → Padded (some text)) :
    ∃ q, rtcpLoop rcvTime (fuel + 1) off (createSimpleByePacket ssrc (some text)).length p =
        rtcpLoop rcvTime fuel (off + (createSimpleByePacket ssrc (some text)).length)
          ((createSimpleByePacket ssrc (some text)).length -
            (createSimpleByePacket ssrc (some text)).length) q ∧
      Goes p q (off + (createSimpleByePacket ssrc (some text)).length) p.session
        (List.replicate p.session.onRtcpBye (some (text.take 255))) := by
  have longer : 0 < text.length := List.length_pos_iff.mpr some_
  have size := length_createSimpleByePacket ssrc some_
  generalize (createSimpleByePacket ssrc (some text)).length = msgsize at size ⊢
  have short : 0 < min text.length rtcpByeReasonMaxStringSize := by
    unfold rtcpByeReasonMaxStringSize
    omega
  have packetSize : rtcpByeHeaderSize + 1 + min text.length rtcpByeReasonMaxStringSize +
      (3 - min text.length rtcpByeReasonMaxStringSize % 4) = msgsize := by
    unfold rtcpByeHeaderSize rtcpByeReasonMaxStringSize
    omega
  simp only [createSimpleByePacket, if_pos short, packetSize] at lies
  have header : Header p.mem off rtcpBYE 1 msgsize := .of_lies (by decide) lies.left.left
  have source : read32 p.mem (off + 4) = htonl ssrc := lies.left.right.read32
  have same : text.take (min text.length rtcpByeReasonMaxStringSize) = text.take 255 := by
    rw [Nat.min_comm, ← List.take_eq_take_min]
    rfl
  rw [same] at lies
  have tail := lies.right.left
  have taken : (text.take 255).length = min text.length 255 := by
    rw [List.length_take, Nat.min_comm]
  have behind : ∀ i, off + 8 ≤ i →
      ((entered p off).touch (.byeSsrc (off + 4))).mem i = p.mem i := by
    intro i further
    exact entered_mem p (by omega)
  have inText : Lies ((entered p off).touch (.byeSsrc (off + 4))).mem (off + 8 + 1)
      (text.take 255) := tail.right.of_same fun i further => behind i (by
    have : off + 9 ≤ i := further
    omega)
  apply loop_bye_of_header rcvTime fuel msgsize header
  · rw [source, ntohl_htonl, known]
  · omega
  · omega
  · omega
  · exact Nat.le_refl msgsize
  · intro loud
    have padding : min text.length 255 % 4 ≠ 3 := padded loud text rfl
    have zero : p.mem (off + 8 + 1 + (text.take 255).length) = 0 := by
      have pad := lies.right.right 0 (by
        rw [List.length_replicate, rtcpByeReasonMaxStringSize]
        omega)
      rw [List.getElem_replicate] at pad
      rw [← pad]
      congr 1
      simp only [List.length_append, length_commonHeader, store32, List.length_cons, List.length_nil]
      omega
    apply reads_some
    · rw [behind (off + 8) (Nat.le_refl _), taken]
      exact tail.left 0 (by simp)
    · omega
    · exact inText
    · intro member
      exact noZero (List.mem_of_mem_take member)
    · rw [behind _ (by omega)]
      exact zero
    · omega
    · omega
    · intro none_
      rw [none_] at taken
      simp only [List.length_nil] at taken
      omega

/-- A BYE packet from the expected source; after an empty reason one byte is
left over, after the others none. -/
theorem loop_bye (rcvTime : τ) (fuel : Nat) {off : Nat} {p : Parse τ} {ssrc : BitVec 32}
    {reason : Option (List Byte)} (lies : Lies p.mem off (createSimpleByePacket ssrc reason))
    (known : p.session.recvSsrc = ssrc) (noZero : ∀ text, reason = some text → 0 ∉ text)
    (padded : 0 < p.session.onRtcpBye → Padded reason) :
    ∃ q size, rtcpLoop rcvTime (fuel + 1) off (createSimpleByePacket ssrc reason).length p =
        rtcpLoop rcvTime fuel (off + size) ((createSimpleByePacket ssrc reason).length - size) q ∧
      (createSimpleByePacket ssrc reason).length < size + 4 ∧
      Goes p q (off + size) p.session
        (List.replicate p.session.onRtcpBye (heardReason reason)) := by
  cases reason with
  | none =>
      have header : Header p.mem off rtcpBYE 1 8 := .of_lies (by decide) lies.left
      have source : read32 p.mem (off + 4) = htonl ssrc := lies.right.read32
      obtain ⟨q, walked, goes⟩ := loop_bye_of_header rcvTime fuel 8 header
        (by rw [source, ntohl_htonl, known]) (by omega) rfl (by omega) (Nat.le_refl 8)
        (fun _ => reads_none (by omega) _)
      exact ⟨q, 8, walked, Nat.lt_add_of_pos_right (by omega), goes⟩
  | some text =>
      by_cases empty : text = []
      · subst empty
        have header : Header p.mem off rtcpBYE 1 8 := .of_lies (by decide) lies.left.left
        have source : read32 p.mem (off + 4) = htonl ssrc := lies.left.right.read32
        obtain ⟨q, walked, goes⟩ := loop_bye_of_header rcvTime fuel 9 header
          (by rw [source, ntohl_htonl, known]) (by omega) rfl (by omega) (Nat.le_succ 8)
          (fun _ => reads_none (by omega) _)
        exact ⟨q, 8, walked, by change 9 < 8 + 4; omega, goes⟩
      · obtain ⟨q, walked, goes⟩ := loop_bye_text rcvTime fuel lies known (noZero text rfl) empty
          padded
        have heard : heardReason (some text) = some (text.take 255) := if_neg empty
        refine ⟨q, _, walked, Nat.lt_add_of_pos_right (by omega), ?_⟩
        rw [heard]
        exact goes

theorem Lies.of_goes {p q : Parse τ} {stop off : Nat} {session : RtcpSession τ}
    {heard : List (Option (List Byte))} {bytes : List Byte} (lies : Lies p.mem off bytes)
    (goes : Goes p q stop session heard) (behind : stop ≤ off) : Lies q.mem off bytes :=
  lies.of_same fun i further => goes.mem i (behind.trans further)

/-- The walk ends where less than a header is left. -/
theorem rtcpLoop_last (rcvTime : τ) (fuel off : Nat) {msgsize : Nat} (rest : msgsize < 4)
    (p : Parse τ) :
    rtcpLoop rcvTime (fuel + 1) off msgsize p =
      some (.ok { p with session.lastRecvTime := rcvTime }) := by
  have last : msgsize < rtcpCommonHeaderSize := rest
  rw [rtcpLoop, if_pos last]

/-- A datagram that fits the buffer lies at its start. -/
theorem lies_received {datagram : List Byte} (behind : Nat → Byte) :
    Lies (fun i => datagram.getD i (behind i)) 0 datagram := by
  intro i inside
  simp [List.getD, inside]

theorem rtcpRecv_of_fits (rcvTime : τ) {datagram : List Byte} (behind : Nat → Byte)
    (session : RtcpSession τ) (fits : datagram.length ≤ rtcpMaxRecvBufsize)
    (long : 4 ≤ datagram.length) :
    rtcpRecv rcvTime datagram behind session =
      rtcpLoop rcvTime (datagram.length + 1) 0 datagram.length
        ⟨fun i => datagram.getD i (behind i), session, [], []⟩ := by
  have short : ¬ datagram.length < rtcpCommonHeaderSize := by
    unfold rtcpCommonHeaderSize
    omega
  rw [rtcpRecv, List.take_of_length_le fits]
  exact if_neg short

theorem length_setSourceDescription (ssrc : BitVec 32) (sd : SourceDescription) :
    4 ≤ (setSourceDescription ssrc sd).bytes.length := by
  have start : (sdesChunkNew ssrc).bytes.length = 4 := rfl
  have atLeast := length_appendb_le
    (sd.items.foldl sdesChunkAppendItem (sdesChunkNew ssrc)) [0] true
  rw [length_items, start] at atLeast
  refine le_trans ?_ atLeast
  omega

theorem length_sdesPacket (ssrc : BitVec 32) {sd : Chunk} (long : 4 ≤ sd.bytes.length) :
    (sdesPacket ssrc sd).length = 4 + sd.bytes.length := by
  simp only [sdesPacket, List.length_append, length_commonHeader, store32,
    List.length_cons, List.length_nil, List.length_drop]
  omega

theorem length_createSimpleByePacket_le (ssrc : BitVec 32) (reason : Option (List Byte)) :
    (createSimpleByePacket ssrc reason).length ≤ 267 := by
  cases reason with
  | none => exact Nat.le_of_ble_eq_true rfl
  | some text =>
      by_cases empty : text = []
      · subst empty
        exact Nat.le_of_ble_eq_true rfl
      · rw [length_createSimpleByePacket ssrc empty]
        omega

/-- The walk over a BYE packet at the end of a datagram. -/
theorem loop_leaves (rcvTime : τ) (fuel : Nat) {off msgsize : Nat} {p : Parse τ} {ssrc : BitVec 32}
    {reason : Option (List Byte)} (lies : Lies p.mem off (createSimpleByePacket ssrc reason))
    (known : p.session.recvSsrc = ssrc) (noZero : ∀ text, reason = some text → 0 ∉ text)
    (padded : 0 < p.session.onRtcpBye → Padded reason)
    (last : msgsize = (createSimpleByePacket ssrc reason).length) :
    ∃ q, rtcpLoop rcvTime (fuel + 2) off msgsize p = some (.ok q) ∧
      q.session = { p.session with lastRecvTime := rcvTime } ∧
      q.byes = List.replicate p.session.onRtcpBye (heardReason reason) ++ p.byes := by
  obtain ⟨q, size, walked, rest, goes⟩ := loop_bye rcvTime (fuel + 1) lies known noZero padded
  refine ⟨{ q with session.lastRecvTime := rcvTime }, ?_, ?_, goes.byes⟩
  · rw [last, walked]
    exact rtcpLoop_last rcvTime fuel _ (by omega) q
  · change { q.session with lastRecvTime := rcvTime } = _
    rw [goes.session_eq]

/-- A datagram is sent where there is no contributing source. -/
theorem rtpSessionBye_eq_some {ssrc : BitVec 32} {si : SenderInfo} {rb : ReportBlock} {sd : Chunk}
    {contributingSources : List Chunk} {reason : Option (List Byte)} {datagram : List Byte} :
    rtpSessionBye ssrc si rb sd contributingSources reason = some datagram ↔
      contributingSources = [] ∧
        datagram = rtcpSrInit ssrc si rb ++ sdesPacket ssrc sd ++
          createSimpleByePacket ssrc reason := by
  cases contributingSources with
  | nil => simp [rtpSessionBye, createRtcpSdesPacket, eq_comm]
  | cons first others => simp [rtpSessionBye, createRtcpSdesPacket]

/-- The walk over the datagram of a session that leaves. -/
theorem loop_rtpSessionBye (rcvTime : τ) (n : Nat) {msgsize : Nat} {p : Parse τ} {ssrc : BitVec 32}
    {si : SenderInfo} {rb : ReportBlock} {sd : Chunk} {reason : Option (List Byte)}
    (lies : Lies p.mem 0
      (rtcpSrInit ssrc si rb ++ sdesPacket ssrc sd ++ createSimpleByePacket ssrc reason))
    (known : p.session.recvSsrc = ssrc) (noZero : ∀ text, reason = some text → 0 ∉ text)
    (padded : 0 < p.session.onRtcpBye → Padded reason) (long : 4 ≤ sd.bytes.length)
    (words : sd.bytes.length % 4 = 0) (small : sd.bytes.length < 2 ^ 18)
    (whole : msgsize = 52 + (4 + sd.bytes.length) + (createSimpleByePacket ssrc reason).length) :
    ∃ q, rtcpLoop rcvTime (n + 4) 0 msgsize p = some (.ok q) ∧
      q.session = { p.session with
        lastRcvSRTs := si.middle, lastRcvSRTime := rcvTime, lastRecvTime := rcvTime } ∧
      q.byes = List.replicate p.session.onRtcpBye (heardReason reason) ++ p.byes := by
  have sdesLength := length_sdesPacket ssrc long
  have report : Lies p.mem 0 (rtcpSrInit ssrc si rb) := lies.left.left
  have sdes : Lies p.mem 52 (sdesPacket ssrc sd) := by
    have right := lies.left.right
    rw [length_rtcpSrInit, Nat.zero_add] at right
    exact right
  have bye : Lies p.mem (52 + (4 + sd.bytes.length)) (createSimpleByePacket ssrc reason) := by
    have right := lies.right
    rw [List.length_append, length_rtcpSrInit, sdesLength, Nat.zero_add] at right
    exact right
  obtain ⟨q, reportWalk, reported⟩ := loop_sr rcvTime (n + 3) msgsize report known (by omega)
  rw [Nat.zero_add] at reportWalk reported
  obtain ⟨r, sdesWalk, described⟩ := loop_sdes rcvTime (n + 2) (msgsize - 52)
    (sdes.of_goes reported (Nat.le_refl 52)) words small (by omega)
  have rest : msgsize - 52 - (4 + sd.bytes.length) = (createSimpleByePacket ssrc reason).length := by
    omega
  have stillKnown : r.session.recvSsrc = ssrc := by
    rw [described.session_eq, reported.session_eq]
    exact known
  have byeThere := (bye.of_goes reported (Nat.le_add_right 52 _)).of_goes described (Nat.le_refl _)
  have stillPadded : 0 < r.session.onRtcpBye → Padded reason := by
    rw [described.session_eq, reported.session_eq]
    exact padded
  obtain ⟨last, byeWalk, session_eq, byes⟩ :=
    loop_leaves rcvTime n byeThere stillKnown noZero stillPadded rest
  refine ⟨last, ?_, ?_, ?_⟩
  · rw [reportWalk, sdesWalk, byeWalk]
  · rw [session_eq, described.session_eq, reported.session_eq]
  · rw [byes, described.session_eq, described.byes, reported.session_eq, reported.byes]
    rfl

theorem loop_rtpSessionByeRecvOnly (rcvTime : τ) (n : Nat) {msgsize : Nat} {p : Parse τ}
    {ssrc : BitVec 32} {rb : ReportBlock} {reason : Option (List Byte)}
    (lies : Lies p.mem 0 (rtpSessionByeRecvOnly ssrc rb reason))
    (known : p.session.recvSsrc = ssrc ∨ p.session.recvSsrc = 0)
    (noZero : ∀ text, reason = some text → 0 ∉ text)
    (padded : 0 < p.session.onRtcpBye → Padded reason)
    (whole : msgsize = 32 + (createSimpleByePacket ssrc reason).length) :
    ∃ q, rtcpLoop rcvTime (n + 3) 0 msgsize p = some (.ok q) ∧
      q.session = { p.session with recvSsrc := ssrc, lastRecvTime := rcvTime } ∧
      q.byes = List.replicate p.session.onRtcpBye (heardReason reason) ++ p.byes := by
  rw [rtpSessionByeRecvOnly] at lies
  have bye : Lies p.mem 32 (createSimpleByePacket ssrc reason) := by
    have right := lies.right
    rw [length_rtcpRrInit, Nat.zero_add] at right
    exact right
  obtain ⟨q, reportWalk, reported⟩ := loop_rr rcvTime (n + 2) msgsize
    lies.left known (by omega)
  rw [Nat.zero_add] at reportWalk reported
  have nowKnown : q.session.recvSsrc = ssrc := by rw [reported.session_eq]
  have stillPadded : 0 < q.session.onRtcpBye → Padded reason := by
    rw [reported.session_eq]
    exact padded
  obtain ⟨last, byeWalk, session_eq, byes⟩ := loop_leaves rcvTime n
    (bye.of_goes reported (Nat.le_refl 32)) nowKnown noZero stillPadded
    (show msgsize - 32 = (createSimpleByePacket ssrc reason).length by omega)
  refine ⟨last, ?_, ?_, ?_⟩
  · rw [reportWalk, byeWalk]
  · rw [session_eq, reported.session_eq]
  · rw [byes, reported.session_eq, reported.byes]
    rfl

/-- A reason of three bytes ends with the datagram: its copy reads behind it. -/
example : (rtcpRecv 7 (rtpSessionByeRecvOnly 5 ⟨6, 0, 0, 1, 2, 3, 4⟩ (some [0x42, 0x79, 0x65]))
    (fun _ => 0) ⟨6, 0, 1, 2, 3, 1⟩).map (fun outcome => outcome.toBool) = some false := by
  decide +kernel

end DvsServer.Ortp.Rtcp
