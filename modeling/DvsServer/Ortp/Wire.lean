import DvsServer.Ortp.Rtp

/-!
# RTP packets on the wire (`utils/ortp/src/rtpsession.c`, `utils/ortp/src/rtpparse.c`)

The sender turns the header in memory into network order and hands the blocks
of the message to `sendmsg`; the receiver reads the header back where the
datagram lies in memory.  Both run on a little-endian host, where the bit
fields of `rtp_header_t` fill each half-word from its low end.
-/

namespace DvsServer.Ortp

/-! ## Byte order -/

def htons (x : BitVec 16) : BitVec 16 := x.extractLsb' 0 8 ++ x.extractLsb' 8 8

def htonl (x : BitVec 32) : BitVec 32 :=
  x.extractLsb' 0 8 ++ x.extractLsb' 8 8 ++ x.extractLsb' 16 8 ++ x.extractLsb' 24 8

def ntohs : BitVec 16 → BitVec 16 := htons

def ntohl : BitVec 32 → BitVec 32 := htonl

def store16 (x : BitVec 16) : List Byte := [x.extractLsb' 0 8, x.extractLsb' 8 8]

def store32 (x : BitVec 32) : List Byte :=
  [x.extractLsb' 0 8, x.extractLsb' 8 8, x.extractLsb' 16 8, x.extractLsb' 24 8]

def load16 (b0 b1 : Byte) : BitVec 16 := b1 ++ b0

def load32 (b0 b1 b2 b3 : Byte) : BitVec 32 := b3 ++ b2 ++ b1 ++ b0

@[simp] theorem ntohs_htons (x : BitVec 16) : ntohs (htons x) = x := by
  unfold ntohs htons
  apply BitVec.eq_of_getLsbD_eq
  intro i hi
  simp only [BitVec.getLsbD_append, BitVec.getLsbD_extractLsb']
  grind

@[simp] theorem ntohl_htonl (x : BitVec 32) : ntohl (htonl x) = x := by
  unfold ntohl htonl
  apply BitVec.eq_of_getLsbD_eq
  intro i hi
  simp only [BitVec.getLsbD_append, BitVec.getLsbD_extractLsb']
  grind

@[simp] theorem load16_store16 (x : BitVec 16) :
    load16 (x.extractLsb' 0 8) (x.extractLsb' 8 8) = x := by
  unfold load16
  apply BitVec.eq_of_getLsbD_eq
  intro i hi
  simp only [BitVec.getLsbD_append, BitVec.getLsbD_extractLsb']
  grind

@[simp] theorem load32_store32 (x : BitVec 32) :
    load32 (x.extractLsb' 0 8) (x.extractLsb' 8 8) (x.extractLsb' 16 8) (x.extractLsb' 24 8) = x := by
  unfold load32
  apply BitVec.eq_of_getLsbD_eq
  intro i hi
  simp only [BitVec.getLsbD_append, BitVec.getLsbD_extractLsb']
  grind

/-- `n` words of memory. -/
def loadWords : Nat → List Byte → List (BitVec 32)
  | n + 1, b0 :: b1 :: b2 :: b3 :: rest => load32 b0 b1 b2 b3 :: loadWords n rest
  | _, _ => []

theorem loadWords_store (words : List (BitVec 32)) (rest : List Byte) :
    loadWords words.length (words.flatMap store32 ++ rest) = words := by
  induction words with
  | nil => cases rest <;> rfl
  | cons word words ih =>
      simp only [List.flatMap_cons, store32, List.length_cons, List.cons_append, List.nil_append,
        loadWords, load32_store32]
      exact congrArg (word :: ·) ih

@[simp] theorem length_store32 (words : List (BitVec 32)) :
    (words.flatMap store32).length = 4 * words.length := by
  induction words with
  | nil => rfl
  | cons word words ih =>
      simp only [List.flatMap_cons, List.length_append, ih, store32, List.length_cons,
        List.length_nil]
      omega

/-! ## Sending -/

namespace RtpHeader

/-- The first two bytes of `rtp_header_t`. -/
def flags (h : RtpHeader) : Byte := h.version ++ h.padbit ++ h.extbit ++ h.cc

def markAndType (h : RtpHeader) : Byte := h.markbit ++ h.paytype

/-- The header as it lies in memory. -/
def image (h : RtpHeader) : List Byte :=
  [h.flags, h.markAndType] ++ store16 h.seqNumber ++ store32 h.timestamp ++ store32 h.ssrc ++
    h.csrc.flatMap store32

/-- The host to network conversions of `ortp_rtp_send`. -/
def hton (h : RtpHeader) : RtpHeader :=
  { h with
    ssrc := htonl h.ssrc
    timestamp := htonl h.timestamp
    seqNumber := htons h.seqNumber
    csrc := h.csrc.map htonl }

/-- `cc` tells the number of contributing sources. -/
def Counted (h : RtpHeader) : Prop := h.csrc.length = h.cc.toNat

theorem flags_fields (h : RtpHeader) :
    h.flags.extractLsb' 6 2 = h.version ∧ h.flags.extractLsb' 5 1 = h.padbit ∧
      h.flags.extractLsb' 4 1 = h.extbit ∧ h.flags.extractLsb' 0 4 = h.cc := by
  unfold flags
  refine ⟨?_, ?_, ?_, ?_⟩
  all_goals
    apply BitVec.eq_of_getLsbD_eq
    intro i hi
    simp only [BitVec.getLsbD_append, BitVec.getLsbD_extractLsb']
    grind

theorem markAndType_fields (h : RtpHeader) :
    h.markAndType.extractLsb' 7 1 = h.markbit ∧ h.markAndType.extractLsb' 0 7 = h.paytype := by
  unfold markAndType
  constructor
  all_goals
    apply BitVec.eq_of_getLsbD_eq
    intro i hi
    simp only [BitVec.getLsbD_append, BitVec.getLsbD_extractLsb']
    grind

theorem length_image (h : RtpHeader) : h.image.length = rtpFixedHeaderSize + 4 * h.csrc.length := by
  simp only [image, List.length_append, length_store32, store16, store32, List.length_cons,
    List.length_nil, rtpFixedHeaderSize]

end RtpHeader

def maxIov : Nat := 10

/-- A message to be sent: the block with the header and the blocks behind it. -/
structure Message where
  header : RtpHeader
  blocks : List (List Byte)

/-- The datagram `rtp_sendmsg` makes of a message: at most `MAX_IOV` blocks. -/
def Message.datagram (m : Message) : List Byte :=
  m.header.hton.image ++ (m.blocks.take (maxIov - 1)).flatten

/-! ## Reading -/

/-- The fixed part of the header as it lies in memory, and what follows it. -/
def loadHeader : List Byte → Option (RtpHeader × List Byte)
  | b0 :: b1 :: s0 :: s1 :: t0 :: t1 :: t2 :: t3 :: r0 :: r1 :: r2 :: r3 :: rest =>
      some (
        { cc := b0.extractLsb' 0 4
          extbit := b0.extractLsb' 4 1
          padbit := b0.extractLsb' 5 1
          version := b0.extractLsb' 6 2
          paytype := b1.extractLsb' 0 7
          markbit := b1.extractLsb' 7 1
          seqNumber := load16 s0 s1
          timestamp := load32 t0 t1 t2 t3
          ssrc := load32 r0 r1 r2 r3
          csrc := [] }, rest)
  | _ => none

/-- The checks and conversions at the start of `rtp_parse`; `none` when the
packet is counted as bad.  A datagram shorter than a fixed header does not get
as far as this. -/
def parsePacket (msg : List Byte) : Option Packet :=
  match loadHeader msg with
  | none => none
  | some (raw, rest) =>
      if raw.version ≠ 2 then none
      else
        let rtp := { raw with
          seqNumber := ntohs raw.seqNumber
          timestamp := ntohl raw.timestamp
          ssrc := ntohl raw.ssrc }
        if rest.length < rtp.cc.toNat * 4 then none
        else some {
          header := { rtp with csrc := (loadWords rtp.cc.toNat rest).map ntohl }
          data := rest.drop (4 * rtp.cc.toNat) }

theorem loadHeader_image (h : RtpHeader) (rest : List Byte) :
    loadHeader (h.image ++ rest) = some ({ h with csrc := [] }, h.csrc.flatMap store32 ++ rest) := by
  obtain ⟨version, padbit, extbit, cc⟩ := h.flags_fields
  obtain ⟨markbit, paytype⟩ := h.markAndType_fields
  simp only [RtpHeader.image, store16, store32, List.cons_append, List.nil_append, loadHeader,
    version, padbit, extbit, cc, markbit, paytype, load16_store16, load32_store32]

/-- The encoding of a header and the data behind it. -/
def Packet.encode (p : Packet) : List Byte := p.header.hton.image ++ p.data

theorem parsePacket_encode {p : Packet} (version : p.header.version = 2)
    (counted : p.header.Counted) : parsePacket p.encode = some p := by
  have sources : (p.header.csrc.map htonl).length = p.header.cc.toNat := by
    rw [List.length_map]
    exact counted
  have room : ¬ ((p.header.csrc.map htonl).flatMap store32 ++ p.data).length <
      p.header.cc.toNat * 4 := by
    rw [List.length_append, length_store32, sources]
    omega
  have words : loadWords p.header.cc.toNat
      ((p.header.csrc.map htonl).flatMap store32 ++ p.data) = p.header.csrc.map htonl := by
    rw [← sources]
    exact loadWords_store _ _
  have data : ((p.header.csrc.map htonl).flatMap store32 ++ p.data).drop
      (4 * p.header.cc.toNat) = p.data := by
    apply List.drop_left'
    rw [length_store32, sources]
  have restored : p.header.csrc.map (ntohl ∘ htonl) = p.header.csrc := by
    calc p.header.csrc.map (ntohl ∘ htonl) = p.header.csrc.map id :=
          List.map_congr_left fun x _ => ntohl_htonl x
      _ = p.header.csrc := List.map_id _
  rw [Packet.encode, parsePacket, loadHeader_image]
  simp only [RtpHeader.hton, if_neg (not_not_intro version), if_neg room, words, data, ntohs_htons,
    ntohl_htonl, List.map_map, restored]

/-! ### Only encodings are accepted -/

@[simp] theorem store16_load16 (b0 b1 : Byte) : store16 (load16 b0 b1) = [b0, b1] := by
  have low : (b1 ++ b0).extractLsb' 0 8 = b0 := BitVec.extractLsb'_append_eq_right
  have high : (b1 ++ b0).extractLsb' 8 8 = b1 := BitVec.extractLsb'_append_eq_left
  rw [store16, load16, low, high]

@[simp] theorem store32_load32 (b0 b1 b2 b3 : Byte) :
    store32 (load32 b0 b1 b2 b3) = [b0, b1, b2, b3] := by
  unfold store32 load32
  congr 1
  · apply BitVec.eq_of_getLsbD_eq
    intro i hi
    simp only [BitVec.getLsbD_append, BitVec.getLsbD_extractLsb']
    grind
  congr 1
  · apply BitVec.eq_of_getLsbD_eq
    intro i hi
    simp only [BitVec.getLsbD_append, BitVec.getLsbD_extractLsb']
    grind
  congr 1
  · apply BitVec.eq_of_getLsbD_eq
    intro i hi
    simp only [BitVec.getLsbD_append, BitVec.getLsbD_extractLsb']
    grind
  congr 1
  apply BitVec.eq_of_getLsbD_eq
  intro i hi
  simp only [BitVec.getLsbD_append, BitVec.getLsbD_extractLsb']
  grind

theorem store_loadWords (n : Nat) (bytes : List Byte) (enough : 4 * n ≤ bytes.length) :
    (loadWords n bytes).flatMap store32 = bytes.take (4 * n) ∧ (loadWords n bytes).length = n := by
  induction n generalizing bytes with
  | zero => cases bytes <;> exact ⟨rfl, rfl⟩
  | succ n ih =>
      match bytes, enough with
      | b0 :: b1 :: b2 :: b3 :: rest, enough =>
          have fewer : 4 * n ≤ rest.length := by
            simp only [List.length_cons] at enough
            omega
          obtain ⟨stored, counted⟩ := ih rest fewer
          have next : 4 * (n + 1) = 4 * n + 1 + 1 + 1 + 1 := by omega
          constructor
          · simp only [loadWords, List.flatMap_cons, store32_load32, stored, next,
              List.take_succ_cons, List.cons_append, List.nil_append]
          · simp only [loadWords, List.length_cons, counted]

theorem flags_extract (b : Byte) :
    (b.extractLsb' 6 2 ++ b.extractLsb' 5 1 ++ b.extractLsb' 4 1 ++ b.extractLsb' 0 4 : Byte) = b := by
  apply BitVec.eq_of_getLsbD_eq
  intro i hi
  simp only [BitVec.getLsbD_append, BitVec.getLsbD_extractLsb']
  grind

theorem markAndType_extract (b : Byte) :
    (b.extractLsb' 7 1 ++ b.extractLsb' 0 7 : Byte) = b := by
  apply BitVec.eq_of_getLsbD_eq
  intro i hi
  simp only [BitVec.getLsbD_append, BitVec.getLsbD_extractLsb']
  grind

theorem image_of_loadHeader {msg rest : List Byte} {raw : RtpHeader}
    (loaded : loadHeader msg = some (raw, rest)) : msg = raw.image ++ rest ∧ raw.csrc = [] := by
  unfold loadHeader at loaded
  split at loaded
  · cases loaded
    refine ⟨?_, rfl⟩
    simp only [RtpHeader.image, RtpHeader.flags, RtpHeader.markAndType, flags_extract,
      markAndType_extract, store16_load16, store32_load32, List.flatMap_nil, List.cons_append,
      List.nil_append]
  · cases loaded

@[simp] theorem htons_ntohs (x : BitVec 16) : htons (ntohs x) = x := ntohs_htons x

@[simp] theorem htonl_ntohl (x : BitVec 32) : htonl (ntohl x) = x := ntohl_htonl x

theorem encode_of_parsePacket {msg : List Byte} {p : Packet} (parsed : parsePacket msg = some p) :
    p.header.version = 2 ∧ p.header.Counted ∧ msg = p.encode := by
  unfold parsePacket at parsed
  split at parsed
  · cases parsed
  · rename_i raw rest loaded
    obtain ⟨whole, none⟩ := image_of_loadHeader loaded
    split at parsed
    · cases parsed
    · rename_i version
      dsimp only at parsed
      split at parsed
      · cases parsed
      · rename_i room
        have enough : 4 * raw.cc.toNat ≤ rest.length := by omega
        obtain ⟨stored, counted⟩ := store_loadWords raw.cc.toNat rest enough
        cases parsed
        refine ⟨not_not.mp version, ?_, ?_⟩
        · unfold RtpHeader.Counted
          rw [List.length_map, counted]
        · have restored : ((loadWords raw.cc.toNat rest).map ntohl).map htonl =
              loadWords raw.cc.toNat rest := by
            rw [List.map_map]
            calc (loadWords raw.cc.toNat rest).map (htonl ∘ ntohl)
                = (loadWords raw.cc.toNat rest).map id :=
                  List.map_congr_left fun x _ => htonl_ntohl x
              _ = loadWords raw.cc.toNat rest := List.map_id _
          have body : (loadWords raw.cc.toNat rest).flatMap store32 ++
              rest.drop (4 * raw.cc.toNat) = rest := by
            rw [stored, List.take_append_drop]
          calc msg = raw.image ++ rest := whole
            _ = raw.image ++ ((loadWords raw.cc.toNat rest).flatMap store32 ++
                  rest.drop (4 * raw.cc.toNat)) := by rw [body]
            _ = _ := by
              simp only [Packet.encode, RtpHeader.image, RtpHeader.hton, RtpHeader.flags,
                RtpHeader.markAndType, none, List.flatMap_nil, List.append_nil, htons_ntohs,
                htonl_ntohl, restored, List.append_assoc]

/-- `rtp_parse` accepts exactly the encodings of version 2 headers whose `cc`
counts the contributing sources, and reads back what was encoded. -/
theorem parsePacket_iff (msg : List Byte) (p : Packet) :
    parsePacket msg = some p ↔
      p.header.version = 2 ∧ p.header.Counted ∧ msg = p.encode := by
  constructor
  · exact encode_of_parsePacket
  · rintro ⟨version, counted, rfl⟩
    exact parsePacket_encode version counted

/-- A message of at most `MAX_IOV` blocks is read back whole. -/
theorem parsePacket_datagram {m : Message} (version : m.header.version = 2)
    (counted : m.header.Counted) (fits : m.blocks.length < maxIov) :
    parsePacket m.datagram = some ⟨m.header, m.blocks.flatten⟩ := by
  have all : m.blocks.take (maxIov - 1) = m.blocks := by
    apply List.take_of_length_le
    simp only [maxIov] at fits ⊢
    omega
  rw [Message.datagram, all]
  exact parsePacket_encode (p := ⟨m.header, m.blocks.flatten⟩) version counted

end DvsServer.Ortp
