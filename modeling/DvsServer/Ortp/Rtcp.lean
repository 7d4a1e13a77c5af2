import DvsServer.Ortp.Wire

/-!
# RTCP (`utils/ortp/src/rtcp.c`, `utils/ortp/src/rtcpparse.c`)

`rtcp_parse` walks over the packets of a datagram where it lies in memory,
turning fields into host order in place as it goes.  The model records every
access, so that the bounds of the walk can be stated, and stops where
`ortp_strndup` leaves its buffers.  What is computed with
floating point numbers is not stored by the parser; what the report blocks of
the sender get from such computations is an input.
-/

namespace DvsServer.Ortp.Rtcp

def rtcpCommonHeaderSize : Nat := 4

def rtcpSsrcFieldSize : Nat := 4

def rtcpSenderInfoSize : Nat := 20

def rtcpReportBlockSize : Nat := 24

def rtcpByeHeaderSize : Nat := 8

def rtcpByeReasonMaxStringSize : Nat := 255

abbrev rtcpSR : Byte := 200

abbrev rtcpRR : Byte := 201

abbrev rtcpSDES : Byte := 202

abbrev rtcpBYE : Byte := 203

abbrev rtcpAPP : Byte := 204

/-! ## Parsing -/

/-- What the parser touches, by the place of its first byte. -/
inductive Access where
  | header (off : Nat)
  | ssrc (off : Nat)
  | senderInfo (off : Nat)
  | block (off : Nat)
  | byeSsrc (off : Nat)
  | reasonLength (off : Nat)
  /-- The string that `ortp_strndup` copies, up to its zero byte. -/
  | reason (off len : Nat)
deriving DecidableEq

/-- The fields of `RtpSession` that RTCP uses; `count` of the callbacks. -/
structure RtcpSession (τ : Type) where
  sendSsrc : BitVec 32
  recvSsrc : BitVec 32
  lastRcvSRTs : BitVec 32
  lastRcvSRTime : τ
  lastRecvTime : τ
  onRtcpBye : Nat
deriving DecidableEq

structure Parse (τ : Type) where
  mem : Nat → Byte
  session : RtcpSession τ
  log : List Access
  /-- The reasons with which the callbacks were called, newest first. -/
  byes : List (Option (List Byte))

variable {τ : Type}

def read16 (mem : Nat → Byte) (off : Nat) : BitVec 16 := load16 (mem off) (mem (off + 1))

def read32 (mem : Nat → Byte) (off : Nat) : BitVec 32 :=
  load32 (mem off) (mem (off + 1)) (mem (off + 2)) (mem (off + 3))

/-- A field of `n` bytes changes its byte order in place. -/
def swapBytes (mem : Nat → Byte) (off n : Nat) : Nat → Byte := fun i =>
  if off ≤ i ∧ i < off + n then mem (2 * off + n - 1 - i) else mem i

namespace Parse

def touch (p : Parse τ) (access : Access) : Parse τ := { p with log := access :: p.log }

def swap (p : Parse τ) (off n : Nat) : Parse τ := { p with mem := swapBytes p.mem off n }

end Parse

def versionOf (first : Byte) : BitVec 2 := first.extractLsb' 6 2

def rcOf (first : Byte) : Nat := (first.extractLsb' 0 5).toNat

/-- `report_block_parse`; what it computes from the fields is not kept. -/
def reportBlockParse (off : Nat) (p : Parse τ) : Parse τ :=
  let ssrc := ntohl (read32 p.mem off)
  let p := (p.touch (.block off)).swap off 4
  if ssrc ≠ p.session.sendSsrc then p
  else ((((p.swap (off + 5) 3).swap (off + 8) 4).swap (off + 12) 4).swap (off + 16) 4).swap
    (off + 20) 4

/-- The loop over the report blocks. -/
def reportBlocks : Nat → Nat → Parse τ → Parse τ
  | 0, _, p => p
  | rc + 1, off, p => reportBlocks rc (off + rtcpReportBlockSize) (reportBlockParse off p)

/-- `strlen` of the string at `off`, where its zero byte lies before `stop`. -/
def strlen (mem : Nat → Byte) (stop off : Nat) : Option Nat :=
  (List.range (stop - off)).find? fun i => mem (off + i) = 0

/-- `ortp_strndup`: the length of the string and the copy; `strncpy` writes `n` bytes into
a buffer that has at most one more than the string. -/
def ortpStrndup (mem : Nat → Byte) (stop off n : Nat) : Option (Nat × List Byte) :=
  (strlen mem stop off).bind fun len =>
    if n ≤ len + 1 then some (len, (List.range (min len n)).map fun i => mem (off + i)) else none

/-- Where `ortp_strndup` leaves its buffers. -/
structure Overrun (τ : Type) where
  state : Parse τ
  off : Nat
  n : Nat

/-- The loop over the sources of a BYE packet. -/
def byeMatches : Nat → Nat → Parse τ → Parse τ × Bool
  | 0, _, p => (p, false)
  | rc + 1, off, p =>
      let p := p.touch (.byeSsrc off)
      if ntohl (read32 p.mem off) = p.session.recvSsrc then (p, true)
      else byeMatches rc (off + 4) p

def parseSR (rcvTime : τ) (off msgsize : Nat) (p : Parse τ) : Parse τ × Bool :=
  let rc := rcOf (p.mem off)
  let p := p.touch (.ssrc off)
  if ntohl (read32 p.mem (off + 4)) ≠ p.session.recvSsrc then (p, false)
  else if msgsize < rtcpCommonHeaderSize + rtcpSsrcFieldSize + rtcpSenderInfoSize +
      rtcpReportBlockSize * rc then (p, false)
  else
    let p := p.touch (.senderInfo off)
    let msw := ntohl (read32 p.mem (off + 8))
    let lsw := ntohl (read32 p.mem (off + 12))
    let p := ((((p.swap (off + 8) 4).swap (off + 12) 4).swap (off + 16) 4).swap (off + 20) 4).swap
      (off + 24) 4
    let p := { p with session := { p.session with
      lastRcvSRTs := (msw <<< 16) ||| (lsw >>> 16)
      lastRcvSRTime := rcvTime } }
    (reportBlocks rc (off + 28) p, true)

def parseRR (off msgsize : Nat) (p : Parse τ) : Parse τ × Bool :=
  let rc := rcOf (p.mem off)
  let p := p.touch (.ssrc off)
  let ssrc := ntohl (read32 p.mem (off + 4))
  if p.session.recvSsrc ≠ 0 ∧ ssrc ≠ p.session.recvSsrc then (p, false)
  else
    -- the first report is adopted, before its size is checked
    let p := if p.session.recvSsrc = 0 then { p with session.recvSsrc := ssrc } else p
    if msgsize < rtcpCommonHeaderSize + rtcpSsrcFieldSize + rtcpReportBlockSize * rc then (p, false)
    else (reportBlocks rc (off + 8) p, true)

/-- The reason of a BYE packet, where there is one; the datagram ends at `stop`. -/
def byeReason (stop off space : Nat) (p : Parse τ) :
    Except (Overrun τ) (Parse τ × Option (List Byte)) :=
  if 1 < space then
    let p := p.touch (.reasonLength off)
    let n := (p.mem off).toNat
    if n ≤ space - 1 then
      match ortpStrndup p.mem stop (off + 1) n with
      | none => .error ⟨p, off + 1, n⟩
      | some (len, reason) => .ok (p.touch (.reason (off + 1) len), some reason)
    else .ok (p, none)
  else .ok (p, none)

/-- `rtp_signal_table_emit2`, where a source matches and there are callbacks. -/
def emitBye (stop off space : Nat) (p : Parse τ) (recvSsrcMatch : Bool) :
    Except (Overrun τ) (Parse τ) :=
  if recvSsrcMatch && 0 < p.session.onRtcpBye then
    (byeReason stop off space p).map fun (p, reason) =>
      { p with byes := List.replicate p.session.onRtcpBye reason ++ p.byes }
  else .ok p

def parseBYE (stop off pkSize : Nat) (p : Parse τ) : Except (Overrun τ) (Parse τ × Bool) :=
  let rc := rcOf (p.mem off)
  let sclen := rc * 4
  if pkSize < rtcpCommonHeaderSize + sclen then .ok (p, false)
  else
    let space := pkSize - rtcpCommonHeaderSize - sclen
    let (p, recvSsrcMatch) := byeMatches rc (off + rtcpCommonHeaderSize) p
    (emitBye stop (off + rtcpCommonHeaderSize + sclen) space p recvSsrcMatch).map fun p => (p, true)

/-- One packet of the datagram: the new state, and whether the walk goes on. -/
def parseOne (rcvTime : τ) (off msgsize pkSize : Nat) (p : Parse τ) :
    Except (Overrun τ) (Parse τ × Bool) :=
  let packetType := p.mem (off + 1)
  if packetType = rtcpSR then .ok (parseSR rcvTime off msgsize p)
  else if packetType = rtcpRR then .ok (parseRR off msgsize p)
  else if packetType = rtcpSDES then .ok (p, true)
  else if packetType = rtcpBYE then parseBYE (off + msgsize) off pkSize p
  else if packetType = rtcpAPP then .ok (p, true)
  else .ok (p, false)

/-- `rtcp_pk_size`, the length being in host order already. -/
def pkSize (mem : Nat → Byte) (off : Nat) : Nat := ((read16 mem (off + 2)).toNat + 1) * 4

/-- The loop of `rtcp_parse`; `none` without fuel. -/
def rtcpLoop (rcvTime : τ) : Nat → Nat → Nat → Parse τ → Option (Except (Overrun τ) (Parse τ))
  | 0, _, _, _ => none
  | fuel + 1, off, msgsize, p =>
      if msgsize < rtcpCommonHeaderSize then
        some (.ok { p with session.lastRecvTime := rcvTime })
      else
        let p := p.touch (.header off)
        if versionOf (p.mem off) ≠ 2 then some (.ok p)
        else
          let p := p.swap (off + 2) 2
          let size := pkSize p.mem off
          if msgsize < size then some (.ok p)
          else
            match parseOne rcvTime off msgsize size p with
            | .error overrun => some (.error overrun)
            | .ok (p, true) => rtcpLoop rcvTime fuel (off + size) (msgsize - size) p
            | .ok (p, false) => some (.ok p)

/-- `rtcp_parse` of `size` bytes at the start of the memory. -/
def rtcpParse (rcvTime : τ) (size : Nat) (p : Parse τ) : Option (Except (Overrun τ) (Parse τ)) :=
  if size < rtcpCommonHeaderSize then some (.ok p) else rtcpLoop rcvTime (size + 1) 0 size p

/-! ## Bounds -/

/-- The place behind the last byte of an access. -/
def Access.stop : Access → Nat
  | .header off => off + 4
  | .ssrc off => off + 8
  | .senderInfo off => off + 28
  | .block off => off + 24
  | .byeSsrc off => off + 4
  | .reasonLength off => off + 1
  | .reason off len => off + len + 1

/-- Where an access may reach: the SSRC of a report is read without a look at
the size, so that only its header is known to be in the datagram. -/
def Access.Within (size : Nat) : Access → Prop
  | .ssrc off => off + 4 ≤ size
  | access => access.stop ≤ size

/-- Everything touched so far was allowed, and no string was copied for want of
a callback. -/
structure Bounded (size count : Nat) (p : Parse τ) : Prop where
  within : ∀ access ∈ p.log, access.Within size
  callbacks : p.session.onRtcpBye = count
  silent : count = 0 → ∀ off len, .reason off len ∉ p.log

/-- The reason has no zero byte behind it in the datagram, or one before its last byte. -/
def Overrun.Unterminated (size : Nat) (overrun : Overrun τ) : Prop :=
  (∀ i, overrun.off ≤ i → i < size → overrun.state.mem i ≠ 0) ∨
    ∃ i, i + 1 < overrun.n ∧ overrun.state.mem (overrun.off + i) = 0

/-- The walk was allowed so far; it stops in a string only for a callback. -/
def Stays (size count : Nat) : Except (Overrun τ) (Parse τ) → Prop
  | .ok p => Bounded size count p
  | .error overrun => Bounded size count overrun.state ∧ 0 < count ∧
      overrun.off + overrun.n ≤ size ∧ overrun.Unterminated size

theorem strlen_eq_some {mem : Nat → Byte} {stop off len : Nat}
    (found : strlen mem stop off = some len) : off + len < stop ∧ mem (off + len) = 0 := by
  have zero := List.find?_some (p := fun i => decide (mem (off + i) = 0)) found
  have inside := List.mem_range.mp (List.mem_of_find?_eq_some found)
  exact ⟨by omega, of_decide_eq_true zero⟩

theorem strlen_eq_none {mem : Nat → Byte} {stop off : Nat} (endless : strlen mem stop off = none) :
    ∀ i, off ≤ i → i < stop → mem i ≠ 0 := by
  intro i first last zero
  have nonzero := List.find?_eq_none.mp endless (i - off) (List.mem_range.mpr (by omega))
  rw [Nat.add_sub_cancel' first] at nonzero
  exact nonzero (decide_eq_true zero)

namespace Bounded

variable {size count : Nat} {p : Parse τ}

theorem touch (bounded : Bounded size count p) {access : Access} (within : access.Within size)
    (quiet : ∀ off len, access = .reason off len → 0 < count) : Bounded size count (p.touch access) := by
  refine ⟨?_, bounded.callbacks, ?_⟩
  · intro other member
    rcases List.mem_cons.mp member with rfl | earlier
    · exact within
    · exact bounded.within other earlier
  · intro none_ off len member
    rcases List.mem_cons.mp member with now | earlier
    · exact absurd none_ (Nat.ne_of_gt (quiet off len now.symm))
    · exact bounded.silent none_ off len earlier

theorem swap (bounded : Bounded size count p) (off n : Nat) : Bounded size count (p.swap off n) :=
  ⟨bounded.within, bounded.callbacks, bounded.silent⟩

theorem reportBlockParse (bounded : Bounded size count p) {off : Nat} (inside : off + 24 ≤ size) :
    Bounded size count (reportBlockParse off p) := by
  have within : Access.Within size (.block off) := inside
  have touched : Bounded size count ((p.touch (.block off)).swap off 4) :=
    (bounded.touch within (by simp)).swap off 4
  unfold Rtcp.reportBlockParse
  dsimp only
  split
  · exact touched
  · exact ((((touched.swap _ _).swap _ _).swap _ _).swap _ _).swap _ _

theorem reportBlocks (bounded : Bounded size count p) {rc off : Nat}
    (inside : off + 24 * rc ≤ size) : Bounded size count (reportBlocks rc off p) := by
  induction rc generalizing off p with
  | zero => exact bounded
  | succ rc ih =>
      apply ih
      · exact bounded.reportBlockParse (by omega)
      · change off + 24 + 24 * rc ≤ size
        omega

theorem byeMatches (bounded : Bounded size count p) {rc off : Nat} (inside : off + 4 * rc ≤ size) :
    Bounded size count (byeMatches rc off p).1 := by
  induction rc generalizing off p with
  | zero => exact bounded
  | succ rc ih =>
      have within : Access.Within size (.byeSsrc off) := by
        change off + 4 ≤ size
        omega
      have touched := bounded.touch within (by simp)
      unfold Rtcp.byeMatches
      dsimp only
      split
      · exact touched
      · exact ih touched (by omega)

theorem ssrc (bounded : Bounded size count p) {off msgsize : Nat} (sum : off + msgsize = size)
    (header : 4 ≤ msgsize) : Bounded size count (p.touch (.ssrc off)) := by
  have within : Access.Within size (.ssrc off) := by
    change off + 4 ≤ size
    omega
  exact bounded.touch within (by simp)

theorem parseSR (bounded : Bounded size count p) {rcvTime : τ} {off msgsize : Nat}
    (sum : off + msgsize = size) (header : 4 ≤ msgsize) :
    Bounded size count (parseSR rcvTime off msgsize p).1 := by
  have touched := bounded.ssrc sum header
  unfold Rtcp.parseSR
  dsimp only
  split
  · exact touched
  · split
    · exact touched
    · rename_i long
      simp only [rtcpCommonHeaderSize, rtcpSsrcFieldSize, rtcpSenderInfoSize, rtcpReportBlockSize]
        at long
      have within : Access.Within size (.senderInfo off) := by
        change off + 28 ≤ size
        omega
      have info := touched.touch within (by simp)
      apply reportBlocks
      · exact ⟨info.within, info.callbacks, info.silent⟩
      · omega

theorem parseRR (bounded : Bounded size count p) {off msgsize : Nat} (sum : off + msgsize = size)
    (header : 4 ≤ msgsize) : Bounded size count (parseRR off msgsize p).1 := by
  have touched := bounded.ssrc sum header
  have adopted : ∀ ssrc, Bounded size count
      { p.touch (.ssrc off) with session.recvSsrc := ssrc } := by
    intro ssrc
    exact ⟨touched.within, touched.callbacks, touched.silent⟩
  unfold Rtcp.parseRR
  dsimp only
  split
  · exact touched
  · split
    · split
      · exact adopted _
      · exact touched
    · rename_i long
      simp only [rtcpCommonHeaderSize, rtcpSsrcFieldSize, rtcpReportBlockSize] at long
      apply reportBlocks
      · split
        · exact adopted _
        · exact touched
      · omega

theorem byeReason (bounded : Bounded size count p) (loud : 0 < count) {off space : Nat}
    (inside : off + space ≤ size) : Stays size count ((byeReason size off space p).map Prod.fst) := by
  unfold Rtcp.byeReason
  split
  · rename_i some_
    have within : Access.Within size (.reasonLength off) := by
      change off + 1 ≤ size
      omega
    have touched := bounded.touch within (by simp)
    dsimp only
    split
    · rename_i fits
      split
      · rename_i overruns
        refine ⟨touched, loud, ?_, ?_⟩
        · dsimp only
          omega
        · cases found : strlen p.mem size (off + 1) with
          | none => exact .inl (strlen_eq_none found)
          | some len =>
              rw [ortpStrndup] at overruns
              change (strlen p.mem size (off + 1)).bind _ = none at overruns
              rw [found, Option.bind_some] at overruns
              refine .inr ⟨len, ?_, (strlen_eq_some found).2⟩
              by_contra room
              rw [if_pos (Nat.not_lt.mp room)] at overruns
              cases overruns
      · rename_i len reason copied
        obtain ⟨len', found, copied⟩ := Option.bind_eq_some_iff.mp copied
        have zero := (strlen_eq_some found).1
        split at copied
        · cases copied
          have read : Access.Within size (.reason (off + 1) len) := by
            change off + 1 + len + 1 ≤ size
            omega
          exact touched.touch read fun _ _ _ => loud
        · cases copied
    · exact touched
  · exact bounded

theorem emitBye (bounded : Bounded size count p) {off space : Nat} (inside : off + space ≤ size)
    (recvSsrcMatch : Bool) : Stays size count (emitBye size off space p recvSsrcMatch) := by
  unfold Rtcp.emitBye
  split
  · rename_i calls
    have loud : 0 < count := by
      rw [← bounded.callbacks]
      simp only [Bool.and_eq_true, decide_eq_true_eq] at calls
      exact calls.2
    have reason := bounded.byeReason loud inside
    cases found : Rtcp.byeReason size off space p with
    | error overrun =>
        rw [found] at reason
        exact reason
    | ok result =>
        rw [found] at reason
        have copied : Bounded size count result.1 := reason
        exact ⟨copied.within, copied.callbacks, copied.silent⟩
  · exact bounded

theorem parseBYE (bounded : Bounded size count p) {off pkSize : Nat} (inside : off + pkSize ≤ size) :
    Stays size count ((parseBYE size off pkSize p).map Prod.fst) := by
  unfold Rtcp.parseBYE
  dsimp only
  split
  · exact bounded
  · rename_i long
    simp only [rtcpCommonHeaderSize] at long ⊢
    have matched : Bounded size count (Rtcp.byeMatches (rcOf (p.mem off)) (off + 4) p).1 :=
      bounded.byeMatches (by omega)
    have room : off + 4 + rcOf (p.mem off) * 4 + (pkSize - 4 - rcOf (p.mem off) * 4) ≤ size := by
      omega
    have emitted := matched.emitBye room (Rtcp.byeMatches (rcOf (p.mem off)) (off + 4) p).2
    cases found : Rtcp.emitBye size (off + 4 + rcOf (p.mem off) * 4)
        (pkSize - 4 - rcOf (p.mem off) * 4) (Rtcp.byeMatches (rcOf (p.mem off)) (off + 4) p).1
        (Rtcp.byeMatches (rcOf (p.mem off)) (off + 4) p).2 with
    | error overrun =>
        rw [found] at emitted
        exact emitted
    | ok q =>
        rw [found] at emitted
        exact emitted

theorem parseOne (bounded : Bounded size count p) (rcvTime : τ) {off msgsize pkSize : Nat}
    (sum : off + msgsize = size) (header : 4 ≤ msgsize) (inside : pkSize ≤ msgsize) :
    Stays size count ((parseOne rcvTime off msgsize pkSize p).map Prod.fst) := by
  unfold Rtcp.parseOne
  dsimp only
  split
  · exact bounded.parseSR sum header
  · split
    · exact bounded.parseRR sum header
    · split
      · exact bounded
      · split
        · rw [sum]
          exact bounded.parseBYE (by omega)
        · split <;> exact bounded

/-- The walk ends, and stays in its bounds. -/
theorem rtcpLoop (rcvTime : τ) {fuel off msgsize : Nat} (enough : msgsize < fuel)
    (bounded : Bounded size count p) (sum : off + msgsize = size) :
    ∃ outcome, rtcpLoop rcvTime fuel off msgsize p = some outcome ∧ Stays size count outcome := by
  induction fuel generalizing off msgsize p with
  | zero => omega
  | succ fuel ih =>
      unfold Rtcp.rtcpLoop
      dsimp only
      split
      · exact ⟨_, rfl, ⟨bounded.within, bounded.callbacks, bounded.silent⟩⟩
      · rename_i header
        simp only [rtcpCommonHeaderSize] at header
        have within : Access.Within size (.header off) := by
          change off + 4 ≤ size
          omega
        have touched := bounded.touch within (by simp)
        split
        · exact ⟨_, rfl, touched⟩
        · have swapped := touched.swap (off + 2) 2
          split
          · exact ⟨_, rfl, swapped⟩
          · rename_i fits
            have parsed := swapped.parseOne rcvTime sum (by omega) (Nat.not_lt.mp fits)
            split
            · rename_i overrun stops
              rw [stops] at parsed
              exact ⟨_, rfl, parsed⟩
            · rename_i p' goesOn
              rw [goesOn] at parsed
              have positive : 0 < pkSize ((p.touch (.header off)).swap (off + 2) 2).mem off := by
                unfold pkSize
                omega
              exact ih (by omega) parsed (by omega)
            · rename_i p' stops
              rw [stops] at parsed
              exact ⟨_, rfl, parsed⟩

end Bounded

/-- How far the parser has come. -/
def reached : Except (Overrun τ) (Parse τ) → Parse τ
  | .ok p => p
  | .error overrun => overrun.state

/-- Whatever the datagram, the memory behind it and the state of the session,
`rtcp_parse` ends, and all it touches lies in the datagram, the SSRC of a
sender or receiver report apart, which may lie up to four bytes behind.  It is
undefined only where a callback waits for a BYE whose reason has no zero byte
behind it in the datagram, or one before its last byte; where no callback waits,
no string is read. -/
theorem rtcp_parse_within (rcvTime : τ) (size : Nat) (mem : Nat → Byte) (session : RtcpSession τ) :
    ∃ outcome, rtcpParse rcvTime size ⟨mem, session, [], []⟩ = some outcome ∧
      (∀ access ∈ (reached outcome).log, access.Within size) ∧
      (∀ overrun, outcome = .error overrun →
        0 < session.onRtcpBye ∧ overrun.off + overrun.n ≤ size ∧ overrun.Unterminated size) ∧
      (session.onRtcpBye = 0 → ∀ off len, .reason off len ∉ (reached outcome).log) := by
  have start : Bounded size session.onRtcpBye (⟨mem, session, [], []⟩ : Parse τ) :=
    ⟨by simp, rfl, by simp⟩
  have parsed : ∃ outcome, rtcpParse rcvTime size ⟨mem, session, [], []⟩ = some outcome ∧
      Stays size session.onRtcpBye outcome := by
    unfold rtcpParse
    split
    · exact ⟨_, rfl, start⟩
    · exact start.rtcpLoop rcvTime (Nat.lt_succ_self size) (Nat.zero_add size)
  obtain ⟨outcome, parsed, stays⟩ := parsed
  refine ⟨outcome, parsed, ?_⟩
  cases outcome with
  | ok p =>
      refine ⟨stays.within, ?_, stays.silent⟩
      intro overrun stops
      cases stops
  | error overrun =>
      obtain ⟨bounded, overruns⟩ := stays
      refine ⟨bounded.within, ?_, bounded.silent⟩
      rintro _ ⟨⟩
      exact overruns

/-- A report that is its header alone: its SSRC lies behind the datagram. -/
example : (rtcpParse () 4 ⟨fun i => [0x80, rtcpSR, 0, 0].getD i 0, ⟨1, 2, 0, (), (), 0⟩, [], []⟩).map
    (fun outcome => (reached outcome).log) = some [.ssrc 0, .header 0] := by
  decide

end DvsServer.Ortp.Rtcp
