import DvsServer.Ortp.Delivery

/-!
# Where the packets go

Whatever datagrams arrive, every packet is handed out, is still in a queue, has
been counted as lost, or repeats the sequence number of another one; and the
queues are bounded.
-/

namespace DvsServer.Ortp.Receive

open DvsServer.Lib DvsServer.Ortp.RtpMod

/-- The datagrams with bytes that could not be read. -/
def unread : History → Nat
  | [] => 0
  | (.datagram msg _, _) :: before =>
      unread before + if msg ≠ [] ∧ parsePacket msg = none then 1 else 0
  | (.recvm _, _) :: before => unread before

/-! ## One queue -/

/-- What `split_and_queue` does with a queue and a packet: `gone` is counted,
`again` is freed as a duplicate. -/
structure Splits (q : List Packet) (maxrqsz : Nat) (mp : Packet) (result : List Packet × Nat)
    (gone again : List Packet) : Prop where
  whole : ∀ p, q.count p + [mp].count p = result.1.count p + gone.count p + again.count p
  gone_length : gone.length = result.2
  repeats : ∀ p ∈ again, ∃ tmp ∈ result.1 ++ gone, tmp.seq = p.seq
  keeps : ∀ p ∈ q, p ∈ result.1 ++ gone
  bounded : q.length ≤ maxrqsz → result.1.length ≤ maxrqsz

theorem splits_shrink {q q' again : List Packet} {mp : Packet} (maxrqsz : Nat)
    (whole : ∀ p, q.count p + [mp].count p = q'.count p + again.count p)
    (repeats : ∀ p ∈ again, ∃ tmp ∈ q', tmp.seq = p.seq) (keeps : ∀ p ∈ q, p ∈ q') :
    Splits q maxrqsz mp (shrink maxrqsz q') (q'.take (q'.length - maxrqsz)) again := by
  have parts : ∀ p, p ∈ q' ↔
      p ∈ q'.drop (q'.length - maxrqsz) ++ q'.take (q'.length - maxrqsz) := by
    intro p
    rw [List.mem_append, or_comm, ← List.mem_append, List.take_append_drop]
  rw [shrink_eq]
  constructor
  · intro p
    have cut : (q'.take (q'.length - maxrqsz)).count p + (q'.drop (q'.length - maxrqsz)).count p =
        q'.count p := by
      rw [← List.count_append, List.take_append_drop]
    rw [whole p, ← cut]
    dsimp only
    omega
  · rw [List.length_take]
    omega
  · intro p inside
    obtain ⟨tmp, queued, same⟩ := repeats p inside
    exact ⟨tmp, (parts tmp).mp queued, same⟩
  · intro p inside
    exact (parts p).mp (keeps p inside)
  · intro _
    rw [List.length_drop]
    omega

theorem splitAndQueue_splits (q : List Packet) (maxrqsz : Nat) (mp : Packet) :
    ∃ gone again, Splits q maxrqsz mp (splitAndQueue q maxrqsz mp) gone again := by
  unfold splitAndQueue
  split
  · refine ⟨[mp], [], ?_, rfl, ?_, ?_, id⟩
    · intro p
      simp
    · intro p inside
      cases inside
    · intro p inside
      exact List.mem_append_left _ inside
  · have puts := rtpPutq_puts q mp
    unfold enqueue
    generalize rtpPutq q mp = put at puts
    cases puts with
    | @inserted above below split greater other passed =>
        refine ⟨_, [], splits_shrink maxrqsz ?_ ?_ ?_⟩
        · intro p
          rw [split]
          simp only [Option.getD_some, List.count_append, List.count_cons, List.count_nil]
          omega
        · intro p inside
          cases inside
        · intro p inside
          rw [split] at inside
          simp only [Option.getD_some, List.mem_append, List.mem_cons] at inside ⊢
          tauto
    | @duplicate tmp queued same =>
        refine ⟨_, [mp], splits_shrink maxrqsz ?_ ?_ ?_⟩
        · intro p
          rfl
        · intro p inside
          rw [List.mem_singleton.mp inside]
          exact ⟨tmp, queued, same.symm⟩
        · intro p inside
          exact inside

/-! ## The session -/

/-- Two sessions with the same queues and the same counters for them. -/
structure SameQueues (session next : RecvSession) : Prop where
  rq : next.rq = session.rq
  tevRq : next.tevRq = session.tevRq
  maxRqSize : next.maxRqSize = session.maxRqSize
  adaptive : next.adaptive = session.adaptive
  bad : next.stats.bad = session.stats.bad
  outoftime : next.stats.outoftime = session.stats.outoftime
  discarded : next.stats.discarded = session.stats.discarded
  skipped : next.stats.skipped = session.stats.skipped

theorem SameQueues.trans {one two three : RecvSession} (first : SameQueues one two)
    (second : SameQueues two three) : SameQueues one three := by
  constructor
  · exact second.rq.trans first.rq
  · exact second.tevRq.trans first.tevRq
  · exact second.maxRqSize.trans first.maxRqSize
  · exact second.adaptive.trans first.adaptive
  · exact second.bad.trans first.bad
  · exact second.outoftime.trans first.outoftime
  · exact second.discarded.trans first.discarded
  · exact second.skipped.trans first.skipped

theorem sameQueues_noteHeader (session : RecvSession) (msg : List Byte) (rtp : Packet) :
    SameQueues session (noteHeader (countPacket session msg) rtp) := by
  constructor <;> rfl

theorem sameQueues_updatePayloadType (profile : Profile) (session : RecvSession) (paytype : Int) :
    SameQueues session (updatePayloadType profile session paytype) := by
  unfold updatePayloadType
  dsimp only
  split
  · constructor <;> rfl
  · constructor <;> rfl

theorem sameQueues_trackJitter (session : RecvSession) (jitter : Jitter) :
    SameQueues session (trackJitter session jitter) := by
  unfold trackJitter
  split
  · constructor <;> rfl
  · constructor <;> rfl

theorem parseMedia_cases (profile : Profile) (session : RecvSession) (rtp : Packet)
    (jitter : Jitter) : ∃ ready, SameQueues session ready ∧
      (parseMedia profile session rtp jitter = countOutoftime ready ∨
        parseMedia profile session rtp jitter = queueMedia ready rtp) := by
  unfold parseMedia
  dsimp only
  have known : SameQueues session
      (if session.hwRecvPt ≠ rtp.header.paytype.toNat then
        updatePayloadType profile session rtp.header.paytype.toNat else session) := by
    split
    · exact sameQueues_updatePayloadType _ _ _
    · constructor <;> rfl
  generalize (if session.hwRecvPt ≠ rtp.header.paytype.toNat then
    updatePayloadType profile session rtp.header.paytype.toNat else session) = updated at known
  split
  · exact ⟨_, known, .inr rfl⟩
  · split
    · exact ⟨_, known.trans (sameQueues_trackJitter updated jitter), .inl rfl⟩
    · exact ⟨_, known.trans (sameQueues_trackJitter updated jitter), .inr rfl⟩

/-- What becomes of a packet that was read: `gone` is counted, `again` repeats a
packet in a queue. -/
structure Stores (session : RecvSession) (rtp : Packet) (next : RecvSession)
    (gone again : List Packet) : Prop where
  adaptive : next.adaptive = session.adaptive
  maxRqSize : next.maxRqSize = session.maxRqSize
  whole : ∀ p, session.rq.count p + session.tevRq.count p + [rtp].count p =
    next.rq.count p + next.tevRq.count p + gone.count p + again.count p
  counted : next.stats.outoftime + next.stats.discarded + next.stats.skipped =
    session.stats.outoftime + session.stats.discarded + session.stats.skipped + gone.length
  repeats : ∀ p ∈ again, ∃ q, (q ∈ next.rq ∨ q ∈ next.tevRq ∨ q ∈ gone) ∧ q.seq = p.seq
  keeps : ∀ q, q ∈ session.rq ∨ q ∈ session.tevRq → q ∈ next.rq ∨ q ∈ next.tevRq ∨ q ∈ gone
  rq_le : session.rq.length ≤ session.maxRqSize → next.rq.length ≤ session.maxRqSize
  tevRq_le : session.tevRq.length ≤ session.maxRqSize → next.tevRq.length ≤ session.maxRqSize
  bad : next.stats.bad = session.stats.bad

theorem stores_countOutoftime (session : RecvSession) (rtp : Packet) :
    Stores session rtp (countOutoftime session) [rtp] [] := by
  refine ⟨rfl, rfl, ?_, ?_, ?_, ?_, id, id, rfl⟩
  · intro p
    simp [countOutoftime]
  · simp only [countOutoftime, List.length_singleton]
    omega
  · intro p inside
    cases inside
  · intro q queued
    exact queued.imp id .inl

theorem stores_queueMedia (session : RecvSession) (rtp : Packet) :
    ∃ gone again, Stores session rtp (queueMedia session rtp) gone again := by
  obtain ⟨gone, again, splits⟩ := splitAndQueue_splits session.rq session.maxRqSize rtp
  refine ⟨gone, again, rfl, rfl, ?_, ?_, ?_, ?_, splits.bounded, id, rfl⟩
  · intro p
    have parts := splits.whole p
    simp only [queueMedia]
    omega
  · have length := splits.gone_length
    simp only [queueMedia]
    omega
  · intro p inside
    obtain ⟨q, place, same⟩ := splits.repeats p inside
    exact ⟨q, (List.mem_append.mp place).imp id .inr, same⟩
  · rintro q (media | event)
    · exact (List.mem_append.mp (splits.keeps q media)).imp id .inr
    · exact .inr (.inl event)

theorem stores_queueEvent (session : RecvSession) (rtp : Packet) :
    ∃ gone again, Stores session rtp (queueEvent session rtp) gone again := by
  obtain ⟨gone, again, splits⟩ := splitAndQueue_splits session.tevRq session.maxRqSize rtp
  refine ⟨gone, again, rfl, rfl, ?_, ?_, ?_, ?_, id, splits.bounded, rfl⟩
  · intro p
    have parts := splits.whole p
    simp only [queueEvent]
    omega
  · have length := splits.gone_length
    simp only [queueEvent]
    omega
  · intro p inside
    obtain ⟨q, place, same⟩ := splits.repeats p inside
    exact ⟨q, .inr (List.mem_append.mp place), same⟩
  · rintro q (media | event)
    · exact .inl media
    · exact .inr (List.mem_append.mp (splits.keeps q event))

/-- Every packet that arrived is somewhere: `lost` is counted, and a packet in
`repeated` has the sequence number of one that is not. -/
structure Accounts (maxRqSize : Nat) (history : History) (session : RecvSession)
    (lost repeated : List Packet) : Prop where
  adaptive : session.adaptive = false
  size : session.maxRqSize = maxRqSize
  whole : ∀ p, (arrived history).count p = (delivered history).count p +
    (signalled history).count p + session.rq.count p + session.tevRq.count p + lost.count p +
      repeated.count p
  lost_length : lost.length =
    session.stats.outoftime + session.stats.discarded + session.stats.skipped
  repeats : ∀ p ∈ repeated, ∃ q, (q ∈ delivered history ∨ q ∈ signalled history ∨
    q ∈ session.rq ∨ q ∈ session.tevRq ∨ q ∈ lost) ∧ q.seq = p.seq
  rq_le : session.rq.length ≤ maxRqSize
  tevRq_le : session.tevRq.length ≤ maxRqSize
  bad : session.stats.bad = unread history

namespace Accounts

variable {maxRqSize : Nat} {history : History} {session : RecvSession} {lost repeated : List Packet}

theorem same (before : Accounts maxRqSize history session lost repeated) {next : RecvSession}
    (same : SameQueues session next) : Accounts maxRqSize history next lost repeated := by
  constructor
  · rw [same.adaptive]
    exact before.adaptive
  · rw [same.maxRqSize]
    exact before.size
  · rw [same.rq, same.tevRq]
    exact before.whole
  · rw [same.outoftime, same.discarded, same.skipped]
    exact before.lost_length
  · rw [same.rq, same.tevRq]
    exact before.repeats
  · rw [same.rq]
    exact before.rq_le
  · rw [same.tevRq]
    exact before.tevRq_le
  · rw [same.bad]
    exact before.bad

/-- A packet that arrived goes where its queue or a counter puts it. -/
theorem arrives (before : Accounts maxRqSize history session lost repeated) {rtp : Packet}
    {msg : List Byte} {jitter : Jitter} (read : parsePacket msg = some rtp) {next : RecvSession}
    {gone again : List Packet} (stores : Stores session rtp next gone again) :
    Accounts maxRqSize ((.datagram msg jitter, ⟨none, none⟩) :: history) next (gone ++ lost)
      (again ++ repeated) := by
  have size := before.size
  constructor
  · rw [stores.adaptive]
    exact before.adaptive
  · rw [stores.maxRqSize]
    exact size
  · intro p
    have whole := before.whole p
    have parts := stores.whole p
    simp only [arrived, delivered, signalled, read, Option.toList_some, Option.toList_none,
      List.append_nil, List.count_append] at parts ⊢
    omega
  · have length := before.lost_length
    have counted := stores.counted
    rw [List.length_append]
    omega
  · intro p inside
    simp only [delivered, signalled, Option.toList_none, List.append_nil, List.mem_append]
    rcases List.mem_append.mp inside with new | old
    · obtain ⟨q, place, same⟩ := stores.repeats p new
      refine ⟨q, ?_, same⟩
      tauto
    · obtain ⟨q, place, same⟩ := before.repeats p old
      refine ⟨q, ?_, same⟩
      have keeps := stores.keeps q
      tauto
  · have bounded := stores.rq_le
    rw [size] at bounded
    exact bounded before.rq_le
  · have bounded := stores.tevRq_le
    rw [size] at bounded
    exact bounded before.tevRq_le
  · simp [unread, read, stores.bad, before.bad]

/-- An empty datagram changes nothing. -/
theorem empty (before : Accounts maxRqSize history session lost repeated) {jitter : Jitter} :
    Accounts maxRqSize ((.datagram [] jitter, ⟨none, none⟩) :: history) session lost repeated := by
  have nothing : parsePacket [] = none := rfl
  refine ⟨before.adaptive, before.size, ?_, before.lost_length, ?_, before.rq_le, before.tevRq_le, ?_⟩
  · intro p
    have whole := before.whole p
    simp only [arrived, delivered, signalled, nothing, Option.toList_none, List.append_nil]
    exact whole
  · simp only [delivered, signalled, Option.toList_none, List.append_nil]
    exact before.repeats
  · simp [Receive.unread, before.bad]

/-- A datagram that could not be read is counted. -/
theorem unreadable (before : Accounts maxRqSize history session lost repeated) {msg : List Byte}
    {jitter : Jitter} (some_ : msg ≠ []) (unread : parsePacket msg = none) {next : RecvSession}
    (same : SameQueues (countBad session) next) :
    Accounts maxRqSize ((.datagram msg jitter, ⟨none, none⟩) :: history) next lost repeated := by
  apply Accounts.same ?_ same
  refine ⟨before.adaptive, before.size, ?_, before.lost_length, ?_, before.rq_le, before.tevRq_le, ?_⟩
  · intro p
    have whole := before.whole p
    simp only [arrived, delivered, signalled, unread, Option.toList_none, List.append_nil]
    exact whole
  · simp only [delivered, signalled, Option.toList_none, List.append_nil]
    exact before.repeats
  · simp [Receive.unread, some_, unread, countBad, before.bad]

theorem datagram (profile : Profile) (before : Accounts maxRqSize history session lost repeated)
    (msg : List Byte) (jitter : Jitter) :
    ∃ lost repeated, Accounts maxRqSize ((.datagram msg jitter, ⟨none, none⟩) :: history)
      (rtpRecvDatagram profile session msg jitter) lost repeated := by
  cases read : parsePacket msg with
  | none =>
      refine ⟨lost, repeated, ?_⟩
      by_cases nothing : msg = []
      · rw [nothing, rtpRecvDatagram_nil]
        exact before.empty
      · apply before.unreadable nothing read
        rcases rtpRecvDatagram_none profile session jitter nothing read with effect | effect
        · rw [effect]
          constructor <;> rfl
        · rw [effect]
          constructor <;> rfl
  | some rtp =>
      have noted := before.same (sameQueues_noteHeader session msg rtp)
      by_cases event : (rtp.header.paytype.toNat : Int) = session.telephoneEventsPt
      · rw [rtpRecvDatagram_event read event]
        obtain ⟨gone, again, stores⟩ := stores_queueEvent _ rtp
        exact ⟨_, _, noted.arrives read stores⟩
      · rw [rtpRecvDatagram_media read event]
        obtain ⟨ready, same, effect | effect⟩ := parseMedia_cases profile
          (noteHeader (countPacket session msg) rtp) rtp jitter
        · rw [effect]
          exact ⟨_, _, (noted.same same).arrives read (stores_countOutoftime ready rtp)⟩
        · rw [effect]
          obtain ⟨gone, again, stores⟩ := stores_queueMedia ready rtp
          exact ⟨_, _, (noted.same same).arrives read stores⟩

/-! ### Taking a packet -/

/-- What a question takes out of the queues: `gone` is counted as skipped. -/
structure Takes (session : RecvSession) (taken : Taken) (next : RecvSession) (gone : List Packet) :
    Prop where
  adaptive : next.adaptive = session.adaptive
  maxRqSize : next.maxRqSize = session.maxRqSize
  media : ∀ p, session.rq.count p = next.rq.count p + taken.media.toList.count p + gone.count p
  event : ∀ p, session.tevRq.count p = next.tevRq.count p + taken.event.toList.count p
  counted : next.stats.outoftime + next.stats.discarded + next.stats.skipped =
    session.stats.outoftime + session.stats.discarded + session.stats.skipped + gone.length
  rq_le : next.rq.length ≤ session.rq.length
  tevRq_le : next.tevRq.length ≤ session.tevRq.length
  bad : next.stats.bad = session.stats.bad

theorem takes (before : Accounts maxRqSize history session lost repeated) {userTs : BitVec 32}
    {taken : Taken} {next : RecvSession} {gone : List Packet}
    (takes : Takes session taken next gone) :
    Accounts maxRqSize ((.recvm userTs, taken) :: history) next (gone ++ lost) repeated := by
  have size := before.size
  constructor
  · rw [takes.adaptive]
    exact before.adaptive
  · rw [takes.maxRqSize]
    exact size
  · intro p
    have whole := before.whole p
    have media := takes.media p
    have event := takes.event p
    simp only [arrived, delivered, signalled, List.count_append]
    omega
  · have length := before.lost_length
    have counted := takes.counted
    rw [List.length_append]
    omega
  · intro p inside
    obtain ⟨q, place, same⟩ := before.repeats p inside
    refine ⟨q, ?_, same⟩
    have media := takes.media q
    have event := takes.event q
    simp only [← List.count_pos_iff, delivered, signalled, List.count_append] at place ⊢
    omega
  · exact takes.rq_le.trans before.rq_le
  · exact takes.tevRq_le.trans before.tevRq_le
  · simp [unread, takes.bad, before.bad]

theorem takes_recvmWithTs (steady : session.adaptive = false) (userTs : BitVec 32) :
    ∃ gone, Takes session (recvmWithTs session userTs).1 (recvmWithTs session userTs).2 gone := by
  have dequeues := dequeue_dequeues (ask session userTs) userTs
  unfold recvmWithTs
  dsimp only
  generalize dequeue (ask session userTs) userTs = found at dequeues
  have event : ∀ p, session.tevRq.count p =
      session.tevRq.tail.count p + session.tevRq.head?.toList.count p := by
    intro p
    cases session.tevRq with
    | nil => rfl
    | cons first rest => simp [List.count_cons]
  have shorter : session.tevRq.tail.length ≤ session.tevRq.length := by
    rw [List.length_tail]
    omega
  cases dequeues with
  | waits sync =>
      refine ⟨[], rfl, rfl, ?_, event, rfl, Nat.le_refl _, shorter, rfl⟩
      intro p
      simp [returnPacket, ask]
  | @starts sync oldest rest rq =>
      have queue : session.rq = oldest :: rest := rq
      refine ⟨[], rfl, rfl, ?_, event, rfl, ?_, shorter, rfl⟩
      · intro p
        have kept : (startClocks (ask session userTs) userTs oldest rest).adaptive = false := steady
        rw [returnPacket_some oldest kept, queue, List.count_cons]
        simp [returnPacket, startClocks, List.count_singleton]
      · change rest.length ≤ session.rq.length
        rw [queue]
        exact Nat.le_succ _
  | answers sync gets =>
      cases gets with
      | nothing early =>
          refine ⟨[], rfl, rfl, ?_, event, rfl, Nat.le_refl _, shorter, rfl⟩
          intro p
          simp [returnPacket, ask]
      | @found skipped rest found split due stops =>
          have queue : session.rq = skipped ++ found :: rest := split
          refine ⟨skipped, rfl, rfl, ?_, event, ?_, ?_, shorter, rfl⟩
          · intro p
            simp only [returnPacket, patch, ask, steady, queue, Option.toList_some,
              List.count_append, List.count_cons, List.count_nil, Bool.false_eq_true, if_false]
            omega
          · simp only [returnPacket, ask]
            omega
          · simp only [returnPacket, queue, List.length_append, List.length_cons]
            omega

theorem step {profile : Profile} (before : Accounts maxRqSize history session lost repeated)
    {event : Op × Taken} {next : RecvSession}
    (taken : ExecStep (recvExec profile) session event next) :
    ∃ lost repeated, Accounts maxRqSize (event :: history) next lost repeated := by
  obtain ⟨op, handed⟩ := event
  cases op with
  | datagram msg jitter =>
      cases taken
      exact before.datagram profile msg jitter
  | recvm userTs =>
      have same := Option.some.inj taken
      obtain ⟨gone, effect⟩ := takes_recvmWithTs before.adaptive userTs
      rw [same] at effect
      exact ⟨_, _, before.takes effect⟩

end Accounts

theorem accounts_receiver (profile : Profile) (paytype : Int) :
    Accounts 100 [] (receiver profile paytype) [] [] := by
  have same : SameQueues (rtpSessionInit profile) (receiver profile paytype) := by
    have noted : SameQueues (rtpSessionInit profile)
        { rtpSessionInit profile with recvPt := paytype } := by
      constructor <;> rfl
    exact noted.trans (sameQueues_updatePayloadType profile _ paytype)
  apply Accounts.same ?_ same
  refine ⟨rfl, rfl, fun p => rfl, rfl, ?_, Nat.zero_le _, Nat.zero_le _, rfl⟩
  intro p inside
  cases inside

end DvsServer.Ortp.Receive
