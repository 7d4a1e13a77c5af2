import DvsServer.Ortp.Receive

/-!
# Delivery in order

One medium stream reaches a session, its packets lost, repeated and in any
order, and the application asks with time stamps that do not go back.  The
packets it gets are a subsequence of the stream.
-/

namespace DvsServer.Ortp.Receive

open DvsServer.Lib DvsServer.Ortp.RtpMod

/-- The packets of a stream as they were sent: inside half of the circle of
sequence numbers, with time stamps that do not go back and span less than half
of their circle. -/
structure MediaStream (base : BitVec 16) (t0 : BitVec 32) (paytype span : Nat)
    (sent : List Packet) : Prop where
  windowed : Windowed base sent
  sorted : sent.Pairwise (Before base)
  stamps : sent.Pairwise fun p q =>
    SerialNumber.distance t0 p.ts ≤ SerialNumber.distance t0 q.ts
  spans : ∀ p ∈ sent, SerialNumber.distance t0 p.ts ≤ span
  paytype : ∀ p ∈ sent, p.header.paytype.toNat = paytype

/-- A later question asks for a time stamp that is not older than the last one,
and at most `limit` ahead of the one that was answered first. -/
structure GoesOn (limit : Nat) (session : RecvSession) (userTs : BitVec 32) : Prop where
  ahead : SerialNumber.distance session.rcvLastRetTs session.rcvLastAppTs ≤
    SerialNumber.distance session.rcvLastRetTs userTs
  near : SerialNumber.distance session.rcvLastRetTs userTs ≤ limit

/-- What the network brings is of the stream; the questions of the
application go on. -/
def Expected (sent : List Packet) (limit : Nat) (session : RecvSession) (event : Op × Taken) : Prop :=
  match event.1 with
  | .datagram msg _ => ∀ p ∈ parsePacket msg, p ∈ sent
  | .recvm userTs => session.recvSync = true ∨ GoesOn limit session userTs

variable {base : BitVec 16} {t0 : BitVec 32} {paytype span limit : Nat} {jump : BitVec 32}
variable {sent : List Packet} {profile : Profile}

/-- Packets of a stream that come later in it are not older. -/
theorem MediaStream.stamp_le (stream : MediaStream base t0 paytype span sent) {p q : Packet}
    (hp : p ∈ sent) (hq : q ∈ sent) (before : Before base p q) :
    SerialNumber.distance t0 p.ts ≤ SerialNumber.distance t0 q.ts := by
  obtain ⟨i, hi, rfl⟩ := List.mem_iff_getElem.mp hp
  obtain ⟨j, hj, rfl⟩ := List.mem_iff_getElem.mp hq
  rcases Nat.lt_trichotomy i j with ahead | same | behind
  · exact List.pairwise_iff_getElem.mp stream.stamps i j hi hj ahead
  · subst same
    exact Nat.le_refl _
  · have after := List.pairwise_iff_getElem.mp stream.sorted j i hj hi behind
    exact absurd before (Nat.lt_asymm after)

/-- A packet with a younger time stamp comes later in the stream. -/
theorem MediaStream.before_of_stamp (stream : MediaStream base t0 paytype span sent) {p q : Packet}
    (hp : p ∈ sent) (hq : q ∈ sent)
    (younger : SerialNumber.distance t0 p.ts < SerialNumber.distance t0 q.ts) :
    Before base p q := by
  rcases Nat.lt_trichotomy (place base p) (place base q) with ahead | same | behind
  · exact ahead
  · have equal : p = q := eq_of_seq stream.sorted hp hq (place_injective base same)
    rw [equal] at younger
    exact absurd younger (Nat.lt_irrefl _)
  · have older := stream.stamp_le hq hp behind
    omega

/-! ## The invariant -/

/-- How the clocks of a session that has returned its first packet go together. -/
structure Synced (t0 : BitVec 32) (span limit : Nat) (history : History) (session : RecvSession) :
    Prop where
  diff : session.rcvDiffTs = session.rcvTsOffset - session.rcvLastRetTs
  hwDiff : session.hwrcvDiffTs = session.rcvDiffTs + session.jittCompTs
  last : session.rcvLastTs = session.rcvLastAppTs + session.rcvDiffTs
  first : SerialNumber.distance t0 session.rcvTsOffset ≤ span
  asked : SerialNumber.distance session.rcvLastRetTs session.rcvLastAppTs ≤ limit
  passed : ∀ p ∈ delivered history,
    SerialNumber.distance t0 p.ts ≤ SerialNumber.distance t0 session.rcvLastTs

structure OnStream (base : BitVec 16) (t0 : BitVec 32) (paytype span limit : Nat) (jump : BitVec 32)
    (sent : List Packet) (history : History) (session : RecvSession) : Prop where
  hwRecvPt : session.hwRecvPt = paytype
  noEvents : session.telephoneEventsPt ≠ paytype
  adaptive : session.adaptive = false
  tsJump : session.tsJump = jump
  sorted : (delivered history ++ session.rq).Pairwise (Before base)
  within : ∀ p ∈ delivered history ++ session.rq, p ∈ sent
  clock : session.recvSync = true ∧ delivered history = [] ∨
    session.recvSync = false ∧ Synced t0 span limit history session

/-- The time stamp that a later question asks for. -/
theorem Synced.distance_eq {history : History} {session : RecvSession}
    (synced : Synced t0 span limit history session) (room : span + limit < 2 ^ 31)
    {userTs : BitVec 32} (near : SerialNumber.distance session.rcvLastRetTs userTs ≤ limit) :
    SerialNumber.distance t0 (userTs + session.rcvDiffTs) =
      SerialNumber.distance t0 session.rcvTsOffset +
        SerialNumber.distance session.rcvLastRetTs userTs := by
  have first := synced.first
  have split : userTs + session.rcvDiffTs =
      session.rcvTsOffset + (userTs - session.rcvLastRetTs) := by
    rw [synced.diff, add_sub_left_comm]
  rw [split]
  apply SerialNumber.distance_add
  change SerialNumber.distance t0 session.rcvTsOffset +
    SerialNumber.distance session.rcvLastRetTs userTs < 2 ^ (31 + 1)
  omega

theorem Synced.last_le {history : History} {session : RecvSession}
    (synced : Synced t0 span limit history session) (room : span + limit < 2 ^ 31) :
    SerialNumber.distance t0 session.rcvLastTs ≤ span + limit := by
  have asked := synced.asked
  have first := synced.first
  rw [synced.last, synced.distance_eq room asked]
  omega

/-- Two sessions that differ in what was counted and noted only. -/
structure SameClock (session next : RecvSession) : Prop where
  hwRecvPt : next.hwRecvPt = session.hwRecvPt
  telephoneEventsPt : next.telephoneEventsPt = session.telephoneEventsPt
  adaptive : next.adaptive = session.adaptive
  tsJump : next.tsJump = session.tsJump
  jittCompTs : next.jittCompTs = session.jittCompTs
  rq : next.rq = session.rq
  recvSync : next.recvSync = session.recvSync
  rcvTsOffset : next.rcvTsOffset = session.rcvTsOffset
  rcvDiffTs : next.rcvDiffTs = session.rcvDiffTs
  hwrcvDiffTs : next.hwrcvDiffTs = session.hwrcvDiffTs
  rcvLastTs : next.rcvLastTs = session.rcvLastTs
  rcvLastAppTs : next.rcvLastAppTs = session.rcvLastAppTs
  rcvLastRetTs : next.rcvLastRetTs = session.rcvLastRetTs

theorem sameClock_rfl (session : RecvSession) : SameClock session session := by
  constructor <;> rfl

theorem SameClock.trans {one two three : RecvSession} (first : SameClock one two)
    (second : SameClock two three) : SameClock one three := by
  constructor
  · exact second.hwRecvPt.trans first.hwRecvPt
  · exact second.telephoneEventsPt.trans first.telephoneEventsPt
  · exact second.adaptive.trans first.adaptive
  · exact second.tsJump.trans first.tsJump
  · exact second.jittCompTs.trans first.jittCompTs
  · exact second.rq.trans first.rq
  · exact second.recvSync.trans first.recvSync
  · exact second.rcvTsOffset.trans first.rcvTsOffset
  · exact second.rcvDiffTs.trans first.rcvDiffTs
  · exact second.hwrcvDiffTs.trans first.hwrcvDiffTs
  · exact second.rcvLastTs.trans first.rcvLastTs
  · exact second.rcvLastAppTs.trans first.rcvLastAppTs
  · exact second.rcvLastRetTs.trans first.rcvLastRetTs

theorem sameClock_countBad (session : RecvSession) : SameClock session (countBad session) := by
  constructor <;> rfl

theorem sameClock_countPacket (session : RecvSession) (msg : List Byte) :
    SameClock session (countPacket session msg) := by
  constructor <;> rfl

theorem sameClock_countOutoftime (session : RecvSession) :
    SameClock session (countOutoftime session) := by
  constructor <;> rfl

theorem sameClock_noteHeader (session : RecvSession) (rtp : Packet) :
    SameClock session (noteHeader session rtp) := by
  constructor <;> rfl

theorem Synced.same {history history' : History} {session next : RecvSession}
    (given : delivered history' = delivered history) (same : SameClock session next)
    (synced : Synced t0 span limit history session) : Synced t0 span limit history' next := by
  constructor
  · rw [same.rcvDiffTs, same.rcvTsOffset, same.rcvLastRetTs]
    exact synced.diff
  · rw [same.hwrcvDiffTs, same.rcvDiffTs, same.jittCompTs]
    exact synced.hwDiff
  · rw [same.rcvLastTs, same.rcvLastAppTs, same.rcvDiffTs]
    exact synced.last
  · rw [same.rcvTsOffset]
    exact synced.first
  · rw [same.rcvLastRetTs, same.rcvLastAppTs]
    exact synced.asked
  · rw [given, same.rcvLastTs]
    exact synced.passed

namespace OnStream

variable {history : History} {session : RecvSession}

theorem same (before : OnStream base t0 paytype span limit jump sent history session)
    {history' : History} {next : RecvSession}
    (given : delivered history' = delivered history) (same : SameClock session next) :
    OnStream base t0 paytype span limit jump sent history' next := by
  constructor
  · rw [same.hwRecvPt]
    exact before.hwRecvPt
  · rw [same.telephoneEventsPt]
    exact before.noEvents
  · rw [same.adaptive]
    exact before.adaptive
  · rw [same.tsJump]
    exact before.tsJump
  · rw [given, same.rq]
    exact before.sorted
  · rw [given, same.rq]
    exact before.within
  · rw [given, same.recvSync]
    exact before.clock.imp id (And.imp id (Synced.same given same))

/-- A packet of the stream that comes behind what was delivered is queued. -/
theorem queueMedia (stream : MediaStream base t0 paytype span sent)
    (before : OnStream base t0 paytype span limit jump sent history session) {rtp : Packet}
    (isSent : rtp ∈ sent) (behind : ∀ p ∈ delivered history, Before base p rtp) :
    OnStream base t0 paytype span limit jump sent history (queueMedia session rtp) := by
  obtain ⟨given, queued, across⟩ := List.pairwise_append.mp before.sorted
  have within : ∀ p ∈ session.rq, p ∈ sent :=
    fun p inside => before.within p (List.mem_append_right _ inside)
  obtain ⟨sorted, members⟩ :=
    enqueue_of_sent stream.windowed stream.sorted isSent within queued
  have sub : (Receive.queueMedia session rtp).rq.Sublist (enqueue session.rq rtp) ∨
      (Receive.queueMedia session rtp).rq = session.rq := by
    unfold Receive.queueMedia splitAndQueue
    split
    · exact .inr rfl
    · left
      simp only [shrink_eq]
      exact List.drop_sublist _ _
  have queue : (Receive.queueMedia session rtp).rq.Pairwise (Before base) ∧
      ∀ p ∈ (Receive.queueMedia session rtp).rq, p = rtp ∨ p ∈ session.rq := by
    rcases sub with sub | same
    · exact ⟨sorted.sublist sub, fun p inside => (members p).mp (sub.subset inside)⟩
    · rw [same]
      exact ⟨queued, fun p inside => .inr inside⟩
  refine ⟨before.hwRecvPt, before.noEvents, before.adaptive, before.tsJump, ?_, ?_, ?_⟩
  · apply List.pairwise_append.mpr
    refine ⟨given, queue.1, ?_⟩
    intro p inGiven q inQueue
    rcases queue.2 q inQueue with rfl | older
    · exact behind p inGiven
    · exact across p inGiven q older
  · intro p inside
    rcases List.mem_append.mp inside with inGiven | inQueue
    · exact before.within p (List.mem_append_left _ inGiven)
    · rcases queue.2 p inQueue with rfl | older
      · exact isSent
      · exact within p older
  · rcases before.clock with ⟨sync, none⟩ | ⟨sync, synced⟩
    · exact .inl ⟨sync, none⟩
    · refine .inr ⟨sync, ?_⟩
      exact ⟨synced.diff, synced.hwDiff, synced.last, synced.first, synced.asked, synced.passed⟩

/-- A packet that is not younger than the last question is too old. -/
theorem tooOld_of_stamp_le (before : OnStream base t0 paytype span limit jump sent history session)
    (synced : Synced t0 span limit history session) (positive : 0 < jump.toNat)
    (room : span + limit + jump.toNat ≤ 2 ^ 31) {rtp : Packet}
    (older : SerialNumber.distance t0 rtp.ts ≤ SerialNumber.distance t0 session.rcvLastTs) :
    tooOld session rtp = true := by
  have narrow : span + limit < 2 ^ 31 := by omega
  have last := synced.last_le narrow
  have inside : SerialNumber.InWindow t0 session.rcvLastTs := by
    change _ < _
    omega
  have rtpInside : SerialNumber.InWindow t0 rtp.ts := by
    change _ < _
    omega
  have ahead : SerialNumber.distance t0 (session.rcvLastTs + session.tsJump) =
      SerialNumber.distance t0 session.rcvLastTs + jump.toNat := by
    rw [before.tsJump]
    apply SerialNumber.distance_add
    omega
  have noJump : rtpTimestampIsNewerThan rtp.ts (session.rcvLastTs + session.tsJump) = false := by
    have behind : SerialNumber.distance t0 rtp.ts <
        SerialNumber.distance t0 (session.rcvLastTs + session.tsJump) := by
      rw [ahead]
      omega
    apply SerialNumber.not_newer_of_behind behind
    rw [ahead]
    omega
  have passed : rtpTimestampIsNewerThan session.rcvLastTs rtp.ts = true :=
    (SerialNumber.newer_iff inside rtpInside).mpr older
  simp [tooOld, noJump, passed]

/-- While the jitter control does not adapt, its answer changes nothing. -/
theorem trackJitter_eq (before : OnStream base t0 paytype span limit jump sent history session)
    (synced : Synced t0 span limit history session) (jitter : Jitter) :
    trackJitter session jitter = session := by
  have same : session.hwrcvDiffTs - session.jittCompTs = session.rcvDiffTs := by
    rw [synced.hwDiff, add_sub_cancel_right]
  have steady : ¬ session.adaptive = true := by
    rw [before.adaptive]
    exact Bool.false_ne_true
  rw [trackJitter, if_neg steady, same]

theorem parseMedia (stream : MediaStream base t0 paytype span sent) (positive : 0 < jump.toNat)
    (room : span + limit + jump.toNat ≤ 2 ^ 31)
    (before : OnStream base t0 paytype span limit jump sent history session) {rtp : Packet}
    (isSent : rtp ∈ sent) (jitter : Jitter) :
    OnStream base t0 paytype span limit jump sent history
      (parseMedia profile session rtp jitter) := by
  have known : ¬ session.hwRecvPt ≠ rtp.header.paytype.toNat := by
    rw [stream.paytype rtp isSent]
    exact not_not_intro before.hwRecvPt
  unfold Receive.parseMedia
  dsimp only
  rw [if_neg known]
  rcases before.clock with ⟨sync, none⟩ | ⟨sync, synced⟩
  · rw [if_pos sync]
    apply before.queueMedia stream isSent
    intro p inside
    rw [none] at inside
    cases inside
  · rw [sync, if_neg Bool.false_ne_true, before.trackJitter_eq synced]
    cases old : tooOld session rtp with
    | true =>
        rw [if_pos rfl]
        exact before.same rfl (sameClock_countOutoftime session)
    | false =>
        rw [if_neg Bool.false_ne_true]
        apply before.queueMedia stream isSent
        intro p given
        apply stream.before_of_stamp (before.within p (List.mem_append_left _ given)) isSent
        have passed := synced.passed p given
        by_contra older
        have passes : SerialNumber.distance t0 rtp.ts ≤
            SerialNumber.distance t0 session.rcvLastTs := by omega
        have late := before.tooOld_of_stamp_le synced positive room passes
        rw [old] at late
        cases late

theorem datagram (stream : MediaStream base t0 paytype span sent) (positive : 0 < jump.toNat)
    (room : span + limit + jump.toNat ≤ 2 ^ 31)
    (before : OnStream base t0 paytype span limit jump sent history session) {msg : List Byte}
    {jitter : Jitter} (expected : ∀ p ∈ parsePacket msg, p ∈ sent) :
    OnStream base t0 paytype span limit jump sent
      ((.datagram msg jitter, ⟨none, none⟩) :: history)
      (rtpRecvDatagram profile session msg jitter) := by
  have given : delivered ((.datagram msg jitter, ⟨none, none⟩) :: history) = delivered history := by
    simp [delivered]
  apply OnStream.same ?_ given (sameClock_rfl _)
  cases read : parsePacket msg with
  | none =>
      by_cases nothing : msg = []
      · rw [nothing, rtpRecvDatagram_nil]
        exact before
      · rcases rtpRecvDatagram_none profile session jitter nothing read with effect | effect
        · rw [effect]
          exact before.same rfl (sameClock_countBad session)
        · rw [effect]
          have counted := before.same rfl (sameClock_countPacket session msg)
          exact counted.same rfl (sameClock_countBad _)
  | some rtp =>
      have isSent := expected rtp read
      have media : (rtp.header.paytype.toNat : Int) ≠ session.telephoneEventsPt := by
        rw [stream.paytype rtp isSent]
        exact before.noEvents.symm
      rw [rtpRecvDatagram_media read media]
      have counted := before.same rfl (sameClock_countPacket session msg)
      have noted := counted.same rfl (sameClock_noteHeader _ rtp)
      exact noted.parseMedia stream positive room isSent jitter

/-! ### Taking a packet -/

theorem sameClock_returnPacket (session : RecvSession) (result : Option Packet) :
    SameClock session (returnPacket session result).2 := by
  cases result <;> constructor <;> rfl

/-- The first packet starts the clocks. -/
theorem starts (stream : MediaStream base t0 paytype span sent)
    (before : OnStream base t0 paytype span limit jump sent history session)
    (none : delivered history = []) {oldest : Packet} {rest : List Packet}
    (rq : session.rq = oldest :: rest) {userTs : BitVec 32} {history' : History} {next : RecvSession}
    (given : delivered history' = [oldest]) (asked : session.rcvLastAppTs = userTs)
    (started : SameClock (startClocks session userTs oldest rest) next) :
    OnStream base t0 paytype span limit jump sent history' next := by
  have whole : delivered history' ++ rest = delivered history ++ session.rq := by
    rw [given, none, rq]
    rfl
  have isSent : oldest ∈ sent := by
    apply before.within
    rw [none, rq]
    exact List.mem_cons_self
  apply OnStream.same ?_ rfl started
  refine ⟨before.hwRecvPt, before.noEvents, before.adaptive, before.tsJump, ?_, ?_, .inr ⟨rfl, ?_⟩⟩
  · change (delivered history' ++ rest).Pairwise _
    rw [whole]
    exact before.sorted
  · change ∀ p ∈ delivered history' ++ rest, p ∈ sent
    rw [whole]
    exact before.within
  · refine ⟨rfl, rfl, ?_, stream.spans oldest isSent, ?_, ?_⟩
    · change oldest.ts = session.rcvLastAppTs + (oldest.ts - userTs)
      rw [asked, add_sub_cancel]
    · change SerialNumber.distance userTs session.rcvLastAppTs ≤ limit
      rw [asked, SerialNumber.distance_self]
      exact Nat.zero_le _
    · intro p inside
      rw [given, List.mem_singleton] at inside
      rw [inside]
      rfl

/-- A later question returns at most one packet, and younger ones stay. -/
theorem answers (stream : MediaStream base t0 paytype span sent) (room : span + limit < 2 ^ 31)
    (before : OnStream base t0 paytype span limit jump sent history session)
    (synced : Synced t0 span limit history session) (sync : session.recvSync = false)
    {userTs : BitVec 32} (goesOn : GoesOn limit session userTs) {result : Getq}
    (gets : Gets session.rq (userTs + session.rcvDiffTs) result) {history' : History}
    {next : RecvSession} (given : delivered history' = delivered history ++ result.ret.toList)
    (asked : SameClock { session with
      rcvLastAppTs := userTs
      rq := result.queue
      rcvLastTs := userTs + session.rcvDiffTs } next) :
    OnStream base t0 paytype span limit jump sent history' next := by
  have first := synced.first
  have ahead := goesOn.ahead
  have near := goesOn.near
  have now := synced.distance_eq room near
  have last : SerialNumber.distance t0 session.rcvLastTs =
      SerialNumber.distance t0 session.rcvTsOffset +
        SerialNumber.distance session.rcvLastRetTs session.rcvLastAppTs := by
    rw [synced.last]
    exact synced.distance_eq room synced.asked
  have inside : SerialNumber.InWindow t0 (userTs + session.rcvDiffTs) := by
    change _ < _
    omega
  have sub : (delivered history' ++ result.queue).Sublist (delivered history ++ session.rq) ∧
      ∀ p ∈ result.ret.toList, SerialNumber.distance t0 p.ts ≤
        SerialNumber.distance t0 (userTs + session.rcvDiffTs) := by
    rw [given]
    cases gets with
    | @found skipped rest found split due stops =>
        constructor
        · rw [split, List.append_assoc]
          apply List.Sublist.append_left
          exact List.sublist_append_right skipped (found :: rest)
        · intro p inFound
          simp only [Option.toList_some, List.mem_singleton] at inFound
          rw [inFound]
          have isSent : found ∈ sent := by
            apply before.within
            rw [split]
            simp
          have foundInside : SerialNumber.InWindow t0 found.ts := by
            have spans := stream.spans found isSent
            change _ < _
            omega
          have isDue := due found (by simp)
          exact (SerialNumber.newer_iff inside foundInside).mp isDue
    | nothing early =>
        constructor
        · simp
        · intro p inNone
          cases inNone
  apply OnStream.same ?_ rfl asked
  refine ⟨before.hwRecvPt, before.noEvents, before.adaptive, before.tsJump, ?_, ?_, .inr ⟨sync, ?_⟩⟩
  · exact before.sorted.sublist sub.1
  · intro p inBoth
    exact before.within p (sub.1.subset inBoth)
  · refine ⟨synced.diff, synced.hwDiff, rfl, synced.first, near, ?_⟩
    intro p inGiven
    rw [given] at inGiven
    rcases List.mem_append.mp inGiven with inOld | inNew
    · have passed := synced.passed p inOld
      change _ ≤ SerialNumber.distance t0 (userTs + session.rcvDiffTs)
      omega
    · exact sub.2 p inNew

theorem recvm (stream : MediaStream base t0 paytype span sent) (room : span + limit < 2 ^ 31)
    (before : OnStream base t0 paytype span limit jump sent history session) (userTs : BitVec 32)
    (expected : session.recvSync = true ∨ GoesOn limit session userTs) :
    OnStream base t0 paytype span limit jump sent
      ((.recvm userTs, (recvmWithTs session userTs).1) :: history)
      (recvmWithTs session userTs).2 := by
  have dequeues := dequeue_dequeues (ask session userTs) userTs
  unfold recvmWithTs
  dsimp only
  generalize dequeue (ask session userTs) userTs = found at dequeues
  have steady : found.2.adaptive = false := by
    cases dequeues <;> exact before.adaptive
  have media : (returnPacket found.2 found.1).1 = found.1 := by
    cases found.1 with
    | none => rfl
    | some rtp => exact returnPacket_some rtp steady
  rw [media]
  have returned := sameClock_returnPacket found.2 found.1
  cases dequeues with
  | waits sync =>
      rcases before.clock with ⟨-, none⟩ | ⟨synced, -⟩
      · have waiting : OnStream base t0 paytype span limit jump sent history
            (ask session userTs) :=
          ⟨before.hwRecvPt, before.noEvents, before.adaptive, before.tsJump, before.sorted,
            before.within, .inl ⟨sync, none⟩⟩
        apply waiting.same ?_ returned
        simp [delivered]
      · exact absurd (sync.symm.trans synced) (by decide)
  | starts sync rq =>
      rcases before.clock with ⟨-, none⟩ | ⟨synced, -⟩
      · have asking : OnStream base t0 paytype span limit jump sent history
            (ask session userTs) :=
          ⟨before.hwRecvPt, before.noEvents, before.adaptive, before.tsJump, before.sorted,
            before.within, .inl ⟨sync, none⟩⟩
        apply asking.starts stream none rq ?_ rfl returned
        simp [delivered, none]
      · exact absurd (sync.symm.trans synced) (by decide)
  | answers sync gets =>
      rcases before.clock with ⟨synced, -⟩ | ⟨-, synced⟩
      · exact absurd (sync.symm.trans synced) (by decide)
      · have goesOn := expected.resolve_left (fun waiting => absurd (sync.symm.trans waiting) (by decide))
        apply before.answers stream room synced sync goesOn gets rfl
        exact SameClock.trans (by constructor <;> rfl) returned

theorem step (stream : MediaStream base t0 paytype span sent) (positive : 0 < jump.toNat)
    (room : span + limit + jump.toNat ≤ 2 ^ 31)
    (before : OnStream base t0 paytype span limit jump sent history session) {event : Op × Taken}
    {next : RecvSession}
    (taken : Guarded (Expected sent limit) (ExecStep (recvExec profile)) session event next) :
    OnStream base t0 paytype span limit jump sent (event :: history) next := by
  obtain ⟨op, handed⟩ := event
  obtain ⟨expected, effect⟩ := taken
  cases op with
  | datagram msg jitter =>
      cases effect
      exact before.datagram stream positive room expected
  | recvm userTs =>
      have same := Option.some.inj effect
      have narrow : span + limit < 2 ^ 31 := by omega
      have after := before.recvm stream narrow userTs expected
      rw [same] at after
      exact after

end OnStream

theorem timeJumpLimit_pos (profile : Profile) (sendPt : Int) :
    0 < (timeJumpLimit profile sendPt).toNat := by
  unfold timeJumpLimit
  split
  · decide
  · rename_i nonzero
    apply Nat.pos_of_ne_zero
    intro zero
    exact nonzero (BitVec.eq_of_toNat_eq zero)

/-- A new session for the payload type of the stream. -/
def receiver (profile : Profile) (paytype : Int) : RecvSession :=
  rtpSessionSetRecvPayloadType profile (rtpSessionInit profile) paytype

theorem onStream_receiver (noEvents : profile.telephoneEventsPt ≠ paytype) :
    OnStream base t0 paytype span limit (timeJumpLimit profile 0) sent []
      (receiver profile paytype) := by
  unfold receiver rtpSessionSetRecvPayloadType updatePayloadType
  dsimp only
  split
  · exact ⟨rfl, noEvents, rfl, rfl, .nil, by simp [delivered, rtpSessionInit], .inl ⟨rfl, rfl⟩⟩
  · exact ⟨rfl, noEvents, rfl, rfl, .nil, by simp [delivered, rtpSessionInit, payloadTypeChanged],
      .inl ⟨rfl, rfl⟩⟩

theorem onStream_of_run (stream : MediaStream base t0 paytype span sent)
    (noEvents : profile.telephoneEventsPt ≠ paytype)
    (room : span + limit + (timeJumpLimit profile 0).toNat ≤ 2 ^ 31)
    {history : History} {session : RecvSession}
    (run : Run (Guarded (Expected sent limit) (ExecStep (recvExec profile)))
      (receiver profile paytype) history session) :
    OnStream base t0 paytype span limit (timeJumpLimit profile 0) sent history session := by
  apply run.invariant (OnStream base t0 paytype span limit (timeJumpLimit profile 0) sent)
  · exact onStream_receiver noEvents
  · intro history state event next _ before taken
    exact before.step stream (timeJumpLimit_pos profile 0) room taken

/-- What was delivered and what is queued behind it follow the stream. -/
theorem OnStream.sublist {history : History} {session : RecvSession}
    (inv : OnStream base t0 paytype span limit jump sent history session)
    (stream : MediaStream base t0 paytype span sent) :
    (delivered history ++ session.rq).Sublist sent := by
  apply List.sublist_of_subperm_of_pairwise ?_ inv.sorted stream.sorted
  exact List.subperm_of_subset inv.sorted.nodup inv.within

/-- However the network loses, repeats and reorders the packets of a stream,
and whatever time stamps the application asks for one after the other, what it
gets is a subsequence of the stream: nothing out of order, nothing twice,
nothing changed. -/
theorem delivers_in_order (stream : MediaStream base t0 paytype span sent)
    (noEvents : profile.telephoneEventsPt ≠ paytype)
    (room : span + limit + (timeJumpLimit profile 0).toNat ≤ 2 ^ 31)
    {history : History} {session : RecvSession}
    (run : Run (Guarded (Expected sent limit) (ExecStep (recvExec profile)))
      (receiver profile paytype) history session) :
    (delivered history).Sublist sent := by
  have inv := onStream_of_run stream noEvents room run
  exact (List.sublist_append_left _ _).trans (inv.sublist stream)

/-! ### One run -/

instance (limit : Nat) (session : RecvSession) (userTs : BitVec 32) :
    Decidable (GoesOn limit session userTs) :=
  decidable_of_iff (_ ∧ _) ⟨fun both => ⟨both.1, both.2⟩, fun goesOn => ⟨goesOn.ahead, goesOn.near⟩⟩

instance (sent : List Packet) (limit : Nat) (session : RecvSession) (event : Op × Taken) :
    Decidable (Expected sent limit session event) :=
  match event with
  | (.datagram msg _, _) => inferInstanceAs (Decidable (∀ p ∈ parsePacket msg, p ∈ sent))
  | (.recvm userTs, _) =>
      inferInstanceAs (Decidable (session.recvSync = true ∨ GoesOn limit session userTs))

/-- A packet of H.263 video with one byte of data. -/
def videoPacket (seq : BitVec 16) (ts : BitVec 32) : Packet :=
  ⟨⟨0, 0, 0, 2, 34, 0, seq, ts, 7, []⟩, [seq.truncate 8]⟩

def videoSent : List Packet :=
  [videoPacket 65535 0, videoPacket 0 3600, videoPacket 1 7200, videoPacket 2 10800]

/-- Eight times the seconds of PCMU, which is the payload type for sending. -/
def videoProfile : Profile := ⟨fun _ => some 0, fun _ => 40000, -1⟩

theorem mediaStream_videoSent : MediaStream 65530 0 34 10800 videoSent := by
  constructor <;> decide

/-- The second packet overtakes the first, which comes twice; the third is too
late for its question. -/
def videoOps : List Op :=
  [.datagram (videoPacket 0 3600).encode ⟨0, 0, 0⟩, .datagram (videoPacket 65535 0).encode ⟨0, 0, 0⟩,
    .recvm 500, .recvm 4100, .datagram (videoPacket 65535 0).encode ⟨0, 0, 0⟩,
    .datagram (videoPacket 2 10800).encode ⟨0, 0, 0⟩, .recvm 11300,
    .datagram (videoPacket 1 7200).encode ⟨0, 0, 0⟩, .recvm 14900]

theorem delivers_in_order_late : ∃ history session,
    execAll (checked (Expected videoSent 100000) (recvExec videoProfile)) videoOps
        ([], receiver videoProfile 34) = some (history, session) ∧
      (delivered history).Sublist videoSent := by
  obtain ⟨result, executed⟩ := Option.isSome_iff_exists.mp
    (by decide : (execAll (checked (Expected videoSent 100000) (recvExec videoProfile)) videoOps
      ([], receiver videoProfile 34)).isSome)
  refine ⟨result.1, result.2, executed, ?_⟩
  exact delivers_in_order mediaStream_videoSent (by decide) (by decide)
    ((execAll_run .nil executed).mono ExecStep.guarded)

example : (execAll (recvExec videoProfile) videoOps ([], receiver videoProfile 34)).map
    (fun (history, _) => delivered history) =
      some [videoPacket 65535 0, videoPacket 0 3600, videoPacket 2 10800] := by
  decide

end DvsServer.Ortp.Receive
