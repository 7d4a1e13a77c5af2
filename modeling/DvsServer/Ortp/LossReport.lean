import DvsServer.Ortp.Receive
import DvsServer.Ortp.RtcpSend
import Mathlib.Tactic.Ring

/-!
# The losses that a receiver reports (`utils/ortp/src/rtcp.c`)

`report_block_init` adds up the losses from report to report: the distance of
the extended sequence numbers less the datagrams between them.  What it
computes in floating point or reads off clocks is an argument.
-/

namespace DvsServer.Ortp.LossReport

open DvsServer.Lib Receive Rtcp

/-- A receiving session with what only reports use. -/
structure Reporter where
  session : RecvSession
  /-- `hwrcv_seq_at_last_SR` -/
  seqAtLastSR : BitVec 32
  /-- `stats.cum_packet_loss` -/
  cumPacketLoss : BitVec 64

/-- `hwrcv_extseq` -/
def extseq (session : RecvSession) : BitVec 32 := session.extseqHi ++ session.extseqLo

structure Measured where
  fractionLost : Byte
  interarrivalJitter : BitVec 32
  lsr : BitVec 32
  delaySncLastSr : BitVec 32

/-- `report_block_init` -/
def reportBlockInit (stream : Reporter) (measured : Measured) : ReportBlock × Reporter :=
  let session := stream.session
  let packetLoss :=
    if stream.seqAtLastSR ≠ 0 then
      extseq session - stream.seqAtLastSR - BitVec.ofNat 32 session.hwrcvSinceLastSR
    else 0
  let cumPacketLoss := stream.cumPacketLoss + packetLoss.setWidth 64
  (⟨session.recvSsrc, measured.fractionLost, cumPacketLoss.setWidth 24, extseq session,
      measured.interarrivalJitter, measured.lsr, measured.delaySncLastSr⟩,
    ⟨{ session with hwrcvSinceLastSR := 0 }, extseq session, cumPacketLoss⟩)

/-! ## The sender's numbers -/

/-- What an observer counts who knows the sender's numbers. -/
structure Seen where
  /-- The highest number of a packet that was received. -/
  high : Nat
  /-- The datagrams that were long enough for a header. -/
  received : Nat
  /-- Both of these at the first report with a highest number other than 0. -/
  first : Option (Nat × Nat)

/-- Expected less received since that report. -/
def Seen.lost (seen : Seen) : Int :=
  match seen.first with
  | none => 0
  | some (high, received) =>
      ((seen.high : Int) - (high : Int)) - ((seen.received : Int) - (received : Int))

structure State where
  stream : Reporter
  seen : Seen

inductive Event where
  /-- A datagram, and the number of its packet if it is one. -/
  | datagram (msg : List Byte) (jitter : Jitter) (n : Nat)
  | recvm (userTs : BitVec 32)
  | report (measured : Measured)

/-- The packet is of the cycle of the highest one, and not from its first 200
when that is in the last 200; or it is from the first 200 of the next cycle. -/
def InReach (high n : Nat) : Prop :=
  (n / 65536 = high / 65536 ∧ ¬ (n % 65536 < 200 ∧ 65336 < high % 65536)) ∨
    (n / 65536 = high / 65536 + 1 ∧ n % 65536 < 200 ∧ 65336 < high % 65536)

instance (high n : Nat) : Decidable (InReach high n) := inferInstanceAs (Decidable (_ ∨ _))

/-- The low 16 bits of a packet's number are its sequence number. -/
def Numbered (s : State) : Event → Prop
  | .datagram msg _ n => ∀ rtp, parsePacket msg = some rtp →
      rtp.seq = BitVec.ofNat 16 n ∧ InReach s.seen.high n ∧ n < 2 ^ 32
  | _ => True

def next (profile : Profile) (s : State) : Event → State
  | .datagram msg jitter n =>
      { stream := { s.stream with
          session := rtpRecvDatagram profile s.stream.session msg jitter }
        seen := { s.seen with
          high := if (parsePacket msg).isSome then max s.seen.high n else s.seen.high
          received := if msg.length < rtpFixedHeaderSize then s.seen.received
            else s.seen.received + 1 } }
  | .recvm userTs =>
      { s with stream := { s.stream with session := (recvmWithTs s.stream.session userTs).2 } }
  | .report measured =>
      { stream := (reportBlockInit s.stream measured).2
        seen := { s.seen with
          first := if s.seen.first = none ∧ s.seen.high ≠ 0 then
            some (s.seen.high, s.seen.received) else s.seen.first } }

def Reports (profile : Profile) (s : State) (e : Event) (s' : State) : Prop :=
  Numbered s e ∧ s' = next profile s e

def started (profile : Profile) : State := ⟨⟨rtpSessionInit profile, 0, 0⟩, ⟨0, 0, none⟩⟩

/-! ## The counters of the session -/

/-- The two halves of `hwrcv_extseq`, and `hwrcv_since_last_SR`. -/
def counters (session : RecvSession) : BitVec 16 × BitVec 16 × Nat :=
  (session.extseqHi, session.extseqLo, session.hwrcvSinceLastSR)

theorem counters_updatePayloadType (profile : Profile) (session : RecvSession) (paytype : Int) :
    counters (updatePayloadType profile session paytype) = counters session := by
  unfold updatePayloadType payloadTypeChanged
  split <;> rfl

theorem counters_trackJitter (session : RecvSession) (jitter : Jitter) :
    counters (trackJitter session jitter) = counters session := by
  unfold trackJitter
  split <;> rfl

theorem counters_parseMedia (profile : Profile) (session : RecvSession) (rtp : Packet)
    (jitter : Jitter) : counters (parseMedia profile session rtp jitter) = counters session := by
  have updated : counters (if session.hwRecvPt ≠ rtp.header.paytype.toNat then
      updatePayloadType profile session rtp.header.paytype.toNat else session) =
      counters session := by
    split
    · exact counters_updatePayloadType profile session _
    · rfl
  unfold parseMedia
  dsimp only
  generalize (if session.hwRecvPt ≠ rtp.header.paytype.toNat then
      updatePayloadType profile session rtp.header.paytype.toNat else session) = current
    at updated ⊢
  split
  · exact updated
  · split
    · exact (counters_trackJitter _ jitter).trans updated
    · exact (counters_trackJitter _ jitter).trans updated

/-- A packet is noted in the extended sequence number. -/
theorem counters_packet (profile : Profile) (session : RecvSession) {msg : List Byte}
    (jitter : Jitter) {rtp : Packet} (read : parsePacket msg = some rtp) :
    counters (rtpRecvDatagram profile session msg jitter) =
      ((updateExtseq session.extseqHi session.extseqLo rtp.seq).1,
        (updateExtseq session.extseqHi session.extseqLo rtp.seq).2,
        session.hwrcvSinceLastSR + 1) := by
  by_cases event : (rtp.header.paytype.toNat : Int) = session.telephoneEventsPt
  · rw [rtpRecvDatagram_event read event]
    rfl
  · rw [rtpRecvDatagram_media read event, counters_parseMedia]
    rfl

/-- What is no packet only counts, when it is long enough. -/
theorem counters_bad (profile : Profile) (session : RecvSession) {msg : List Byte}
    (jitter : Jitter) (unread : parsePacket msg = none) :
    counters (rtpRecvDatagram profile session msg jitter) =
      (session.extseqHi, session.extseqLo,
        if msg.length < rtpFixedHeaderSize then session.hwrcvSinceLastSR
        else session.hwrcvSinceLastSR + 1) := by
  unfold rtpRecvDatagram rtpParse
  split
  · rename_i nothing
    rw [nothing, if_pos (by decide)]
    rfl
  · split
    · rfl
    · simp only [unread]
      rfl

theorem counters_recvmWithTs (session : RecvSession) (userTs : BitVec 32) :
    counters (recvmWithTs session userTs).2 = counters session := by
  have dequeues := dequeue_dequeues (ask session userTs) userTs
  unfold recvmWithTs
  generalize dequeue (ask session userTs) userTs = found at dequeues
  have returned : ∀ found : Option Packet × RecvSession,
      counters (returnPacket found.2 found.1).2 = counters found.2 := by
    rintro ⟨ret, session⟩
    cases ret <;> rfl
  dsimp only
  rw [returned]
  cases dequeues with
  | waits => rfl
  | starts => rfl
  | answers => rfl

/-! ## The extended sequence number -/

/-- A packet within reach makes the extended number that of the highest packet. -/
theorem updateExtseq_number {high n : Nat} (reach : InReach high n) :
    updateExtseq (BitVec.ofNat 16 (high / 65536)) (BitVec.ofNat 16 high) (BitVec.ofNat 16 n) =
      (BitVec.ofNat 16 (max high n / 65536), BitVec.ofNat 16 (max high n)) := by
  have later : BitVec.ofNat 16 high < BitVec.ofNat 16 n ↔ high % 65536 < n % 65536 := by
    rw [BitVec.lt_def, BitVec.toNat_ofNat, BitVec.toNat_ofNat]
  have early : BitVec.ofNat 16 n < 200 ↔ n % 65536 < 200 := by
    rw [BitVec.lt_def, BitVec.toNat_ofNat]
    rfl
  have late : (65336 : BitVec 16) < BitVec.ofNat 16 high ↔ 65336 < high % 65536 := by
    rw [BitVec.lt_def, BitVec.toNat_ofNat]
    rfl
  unfold updateExtseq
  simp only [later, early, late]
  rcases reach with ⟨cycle, near⟩ | ⟨cycle, first, end_⟩
  · by_cases ahead : high % 65536 < n % 65536
    · rw [if_pos ahead, Nat.max_eq_right (by omega), cycle]
    · rw [if_neg ahead, if_neg near, Nat.max_eq_left (by omega)]
  · rw [if_neg (by omega), if_pos ⟨first, end_⟩, Nat.max_eq_right (by omega), cycle,
      BitVec.ofNat_add]
    rfl

theorem append_halves (n : Nat) :
    BitVec.ofNat 16 (n / 65536) ++ BitVec.ofNat 16 n = BitVec.ofNat 32 n := by
  apply BitVec.eq_of_toNat_eq
  rw [BitVec.toNat_append, BitVec.toNat_ofNat, BitVec.toNat_ofNat, BitVec.toNat_ofNat,
    ← Nat.shiftLeft_add_eq_or_of_lt (Nat.mod_lt n (by decide)), Nat.shiftLeft_eq]
  omega

/-! ## Runs -/

/-- `high` and `received` were what the observer had counted at the last report. -/
structure Sound (s : State) (high received : Nat) : Prop where
  extseqHi : s.stream.session.extseqHi = BitVec.ofNat 16 (s.seen.high / 65536)
  extseqLo : s.stream.session.extseqLo = BitVec.ofNat 16 s.seen.high
  small : s.seen.high < 2 ^ 32
  seqAtLastSR : s.stream.seqAtLastSR = BitVec.ofNat 32 high
  before : high ≤ s.seen.high
  since : s.stream.session.hwrcvSinceLastSR + received = s.seen.received
  nothing : s.seen.first = none → high = 0 ∧ s.stream.cumPacketLoss = 0
  lost : ∀ start, s.seen.first = some start → high ≠ 0 ∧
    s.stream.cumPacketLoss.setWidth 32 =
      (((high : Int) - start.1 - (received - start.2) : Int) : BitVec 32)

namespace Sound

variable {profile : Profile} {s : State} {high received : Nat}

theorem started (profile : Profile) : Sound (started profile) 0 0 := by
  constructor
  case extseqHi => exact (by decide : (0 : BitVec 16) = BitVec.ofNat 16 (0 / 65536))
  case extseqLo => rfl
  case small => exact Nat.two_pow_pos 32
  case seqAtLastSR => rfl
  case before => exact Nat.le_refl 0
  case since => rfl
  case nothing => exact fun _ => ⟨rfl, rfl⟩
  case lost => intro start none_; cases none_

theorem extseq_eq (sound : Sound s high received) :
    extseq s.stream.session = BitVec.ofNat 32 s.seen.high := by
  rw [extseq, sound.extseqHi, sound.extseqLo, append_halves]

/-- Other fields of the session do not matter. -/
theorem same (sound : Sound s high received) {session : RecvSession}
    (kept : counters session = counters s.stream.session) :
    Sound { s with stream := { s.stream with session } } high received := by
  simp only [counters, Prod.mk.injEq] at kept
  obtain ⟨extseqHi, extseqLo, since⟩ := kept
  exact ⟨extseqHi.trans sound.extseqHi, extseqLo.trans sound.extseqLo, sound.small,
    sound.seqAtLastSR, sound.before, since ▸ sound.since, sound.nothing, sound.lost⟩

theorem datagram (sound : Sound s high received) {msg : List Byte} {jitter : Jitter} {n : Nat}
    (numbered : Numbered s (.datagram msg jitter n)) :
    Sound (next profile s (.datagram msg jitter n)) high received := by
  have before := sound.before
  have since := sound.since
  cases read : parsePacket msg with
  | none =>
      have counted := counters_bad profile s.stream.session jitter read
      simp only [counters, Prod.mk.injEq] at counted
      obtain ⟨extseqHi, extseqLo, sinceSR⟩ := counted
      have high_eq : (next profile s (.datagram msg jitter n)).seen.high = s.seen.high := by
        simp [next, read]
      constructor
      case extseqHi =>
        rw [high_eq]
        exact extseqHi.trans sound.extseqHi
      case extseqLo =>
        rw [high_eq]
        exact extseqLo.trans sound.extseqLo
      case small =>
        rw [high_eq]
        exact sound.small
      case seqAtLastSR => exact sound.seqAtLastSR
      case before =>
        rw [high_eq]
        exact before
      case since =>
        simp only [next, sinceSR]
        split <;> omega
      case nothing => exact sound.nothing
      case lost => exact sound.lost
  | some rtp =>
      obtain ⟨seq, reach, small⟩ := numbered rtp read
      have long := length_of_parsePacket read
      have counted := counters_packet profile s.stream.session jitter read
      rw [sound.extseqHi, sound.extseqLo, seq, updateExtseq_number reach] at counted
      simp only [counters, Prod.mk.injEq] at counted
      obtain ⟨extseqHi, extseqLo, sinceSR⟩ := counted
      have higher : (next profile s (.datagram msg jitter n)).seen.high = max s.seen.high n := by
        simp [next, read]
      constructor
      case extseqHi =>
        rw [higher]
        exact extseqHi
      case extseqLo =>
        rw [higher]
        exact extseqLo
      case small =>
        rw [higher]
        exact Nat.max_lt.mpr ⟨sound.small, small⟩
      case seqAtLastSR => exact sound.seqAtLastSR
      case before =>
        rw [higher]
        exact before.trans (Nat.le_max_left _ _)
      case since =>
        simp only [next, sinceSR, if_neg (Nat.not_lt_of_le long)]
        omega
      case nothing => exact sound.nothing
      case lost => exact sound.lost

/-- What the losses add up to with this report. -/
theorem cumPacketLoss_eq (sound : Sound s high received) (measured : Measured) :
    (reportBlockInit s.stream measured).2.cumPacketLoss.setWidth 32 =
      ((s.seen.lost : Int) : BitVec 32) := by
  have distance : ∀ loss : BitVec 32, (s.stream.cumPacketLoss + loss.setWidth 64).setWidth 32 =
      s.stream.cumPacketLoss.setWidth 32 + loss := by
    intro loss
    rw [BitVec.setWidth_add _ _ (by decide), BitVec.setWidth_setWidth_of_le _ (by decide),
      BitVec.setWidth_eq]
  have small := sound.small
  have before := sound.before
  have since := sound.since
  dsimp only [reportBlockInit]
  rw [distance, sound.seqAtLastSR, sound.extseq_eq, Seen.lost]
  cases first : s.seen.first with
  | none =>
      obtain ⟨nothing, zero⟩ := sound.nothing first
      rw [nothing, zero]
      rfl
  | some start =>
      obtain ⟨some_, lost⟩ := sound.lost start first
      have different : BitVec.ofNat 32 high ≠ 0 := by
        intro equal
        have value := congrArg BitVec.toNat equal
        rw [BitVec.toNat_ofNat, Nat.mod_eq_of_lt (by omega)] at value
        exact some_ value
      rw [if_pos different, lost, ← since]
      simp only [← BitVec.natCast_eq_ofNat]
      push_cast
      ring

theorem report (sound : Sound s high received) (measured : Measured) :
    Sound (next profile s (.report measured)) s.seen.high s.seen.received := by
  have lost := sound.cumPacketLoss_eq measured
  constructor
  case extseqHi => exact sound.extseqHi
  case extseqLo => exact sound.extseqLo
  case small => exact sound.small
  case seqAtLastSR => exact sound.extseq_eq
  case before => exact Nat.le_refl _
  case since => exact Nat.zero_add _
  case nothing =>
    intro none_
    simp only [next] at none_ ⊢
    split at none_
    · cases none_
    · rename_i neither
      have zero : s.seen.high = 0 := by
        by_contra some_
        exact neither ⟨none_, some_⟩
      obtain ⟨last, cum⟩ := sound.nothing none_
      refine ⟨zero, ?_⟩
      rw [reportBlockInit, sound.seqAtLastSR, last]
      simp [cum]
  case lost =>
    intro start is
    simp only [next] at is ⊢
    rw [lost, Seen.lost]
    split at is
    · rename_i new
      cases is
      rw [new.1]
      refine ⟨new.2, ?_⟩
      simp
    · rw [is]
      have before := sound.before
      obtain ⟨some_, -⟩ := sound.lost start is
      exact ⟨by omega, rfl⟩

end Sound

section Run

variable {profile : Profile} {history : List Event} {s : State}

theorem sound_of_run (run : Run (Reports profile) (started profile) history s) :
    ∃ high received, Sound s high received := by
  refine run.invariant (fun _ s => ∃ high received, Sound s high received)
    ⟨0, 0, .started profile⟩ ?_
  rintro _ s e s' - ⟨high, received, sound⟩ ⟨numbered, rfl⟩
  cases e with
  | datagram msg jitter n => exact ⟨high, received, sound.datagram numbered⟩
  | recvm userTs => exact ⟨high, received, sound.same (counters_recvmWithTs _ userTs)⟩
  | report measured => exact ⟨_, _, sound.report measured⟩

theorem setWidth_intCast (z : Int) : (z : BitVec 32).setWidth 24 = BitVec.ofInt 24 z := by
  apply BitVec.eq_of_toNat_eq
  change ((BitVec.ofInt 32 z).setWidth 24).toNat = _
  rw [BitVec.toNat_setWidth, BitVec.toNat_ofInt, BitVec.toNat_ofInt]
  omega

end Run

def anyProfile : Profile := ⟨fun _ => none, fun _ => 0, 101⟩

def arrival (n : Nat) : Event :=
  .datagram (RtpMod.numbered (BitVec.ofNat 16 n)).encode ⟨0, 0, 0⟩ n

theorem arrival_numbered {s : State} {n : Nat} (reach : InReach s.seen.high n)
    (small : n < 2 ^ 32) : Reports anyProfile s (arrival n) (next anyProfile s (arrival n)) := by
  refine ⟨?_, rfl⟩
  intro rtp read
  have whole : parsePacket (RtpMod.numbered (BitVec.ofNat 16 n)).encode =
      some (RtpMod.numbered (BitVec.ofNat 16 n)) := parsePacket_encode rfl rfl
  rw [whole] at read
  cases read
  exact ⟨rfl, reach, small⟩

/-- A report between packet 5 and packet 8. -/
def afterGap : State :=
  let s := next anyProfile (started anyProfile) (arrival 5)
  let s := next anyProfile s (.report ⟨0, 0, 0, 0⟩)
  next anyProfile s (arrival 8)

end DvsServer.Ortp.LossReport
