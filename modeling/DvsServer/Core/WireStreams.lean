import DvsServer.Core.TimeStamps
import DvsServer.Ortp.Send
import DvsServer.Ortp.RtpMod

/-!
# The streams on the wire

`rtpsend.c` over oRTP: every `rtp_send` becomes one datagram of the session
object it names.  Each object has its own sequence numbers, while the time
stamps live in the entry of `g_rtpSessionMgr`.
-/

namespace DvsServer.Core.WireStreams

open DvsServer.Lib DvsServer.Com.RtpSend DvsServer.Core.Session DvsServer.Core.TimeStamps
open DvsServer.Ortp

/-- The session table and the session objects of oRTP by their handles. -/
structure Wire where
  mgr : SessionMgr
  objects : Nat → SendSession

/-- A call, with the memory it reads and the random SSRC it would get. -/
structure Call where
  op : RtpOp
  memory : Nat → Byte
  random : BitVec 32

/-- A datagram with the object that sent it and the payload it was made of. -/
structure Datagram where
  handle : Nat
  payload : List Byte
  bytes : List Byte

structure Outcome where
  ret : Int
  sent : Option Datagram

/-- The object `create_rtp_session` sets up: `rtp_session_set_ssrc` is called
only when an SSRC is configured. -/
def newObject (random : BitVec 32) (session : RtpSession) : SendSession :=
  let object := match session.ssrc with
    | none => rtpSessionNew random
    | some ssrc => rtpSessionSetSsrc (rtpSessionNew random) (BitVec.ofInt 32 ssrc)
  rtpSessionSetSendPayloadType object session.payloadType

/-- The bytes of a buffer. -/
def payloadAt (memory : Nat → Byte) (buffer : Nat) (len : Int32) : List Byte :=
  (List.range len.toInt.toNat).map fun i : Nat => memory (buffer + i)

def Wire.transmit (s : Wire) (memory : Nat → Byte) (call : OrtpSend) : Datagram × Wire :=
  let payload := payloadAt memory call.buffer call.len
  let result := sendWithTs (s.objects call.session.handle) payload call.timestamp.toBitVec
  (⟨call.session.handle, payload, result.1.datagram⟩,
    { s with objects := Function.update s.objects call.session.handle result.2 })

/-- One call.  A negative length is outside the model: it would make the block
of the payload end before it begins. -/
def wireExec (s : Wire) (call : Call) : Option (Outcome × Wire) :=
  match call.op with
  | .rtpInit getenvSSRC => some (⟨0, none⟩, { s with mgr := rtpInit getenvSSRC s.mgr })
  | .createRtpSession medium ipStr port =>
      let creation := createRtpSession s.mgr ipStr port medium.sessionType
      let objects := match creation.session with
        | none => s.objects
        | some session =>
            Function.update s.objects session.handle (newObject call.random session)
      some (⟨creation.ret, none⟩, ⟨creation.mgr, objects⟩)
  | .rtpSend sessionID buffer len _ =>
      match rtpSend s.mgr sessionID buffer len with
      | none => none
      | some sending =>
          match sending.sent with
          | none => some (⟨sending.ret, none⟩, { s with mgr := sending.mgr })
          | some ortpSend =>
              if len.toInt < 0 then none
              else
                let result := { s with mgr := sending.mgr }.transmit call.memory ortpSend
                some (⟨sending.ret, some result.1⟩, result.2)
  | .removeSessionObj sessionID =>
      (removeSessionObj s.mgr sessionID).map fun (ret, m) => (⟨ret, none⟩, { s with mgr := m })

abbrev History := List (Call × Outcome)

/-- The datagrams of one object, oldest first. -/
def datagramsOf (handle : Nat) : History → List Datagram
  | [] => []
  | (_, outcome) :: before =>
      datagramsOf handle before ++ outcome.sent.toList.filter fun d => d.handle = handle

/-- The `k`-th packet of a stream. -/
def streamPacket (medium : Medium) (ssrc : BitVec 32) (k : Nat) (payload : List Byte) : Packet where
  header :=
    { cc := 0, extbit := 0, padbit := 0, version := 2
      paytype := BitVec.ofNat 7 medium.payloadType
      markbit := 0
      seqNumber := BitVec.ofNat 16 k
      timestamp := (stampAt medium k).toBitVec
      ssrc
      csrc := [] }
  data := payload

/-- A receiver reads the datagrams as a stream that counts up from zero. -/
def IsStream (medium : Medium) (ssrc : BitVec 32) (datagrams : List Datagram) : Prop :=
  datagrams.map (fun d => parsePacket d.bytes) =
    datagrams.mapIdx fun k d => some (streamPacket medium ssrc k d.payload)

/-! ## What a run keeps -/

/-- The object after `k` packets of a stream. -/
structure Streams (medium : Medium) (object : SendSession) (k : Nat) : Prop where
  sendPt : object.sendPt = medium.payloadType
  sndSeq : object.sndSeq = BitVec.ofNat 16 k

/-- What an entry holds: nothing, or an object whose stream it carries on. -/
inductive Holds (nextHandle : Nat) (objects : Nat → SendSession) (count : Nat → Nat) :
    SessionObj → Prop where
  | free : Holds nextHandle objects count ⟨none, 0, 0⟩
  | used (session : RtpSession) (medium : Medium) (known : session.handle < nextHandle)
      (streams : Streams medium (objects session.handle) (count session.handle)) :
      Holds nextHandle objects count
        ⟨some session, stampAt medium (count session.handle), medium.timeStampInc⟩

structure Invariant (history : History) (s : Wire) : Prop where
  holds : ∀ i, Holds s.mgr.nextHandle s.objects
    (fun handle => (datagramsOf handle history).length) (s.mgr.table i)
  apart : ∀ i j session session', s.mgr.live i = some session → s.mgr.live j = some session' →
    session.handle = session'.handle → i = j
  streams : ∀ handle, handle < s.mgr.nextHandle → ∃ medium,
    (s.objects handle).sendPt = medium.payloadType ∧
      IsStream medium (s.objects handle).sendSsrc (datagramsOf handle history)
  unborn : ∀ handle, s.mgr.nextHandle ≤ handle → datagramsOf handle history = []

theorem datagramsOf_silent {history : History} {call : Call} {ret : Int} (handle : Nat) :
    datagramsOf handle ((call, ⟨ret, none⟩) :: history) = datagramsOf handle history := by
  simp [datagramsOf]

theorem datagramsOf_sent {history : History} {call : Call} {ret : Int} {d : Datagram} :
    datagramsOf d.handle ((call, ⟨ret, some d⟩) :: history) = datagramsOf d.handle history ++ [d] := by
  simp [datagramsOf]

theorem datagramsOf_other {history : History} {call : Call} {ret : Int} {d : Datagram} {handle : Nat}
    (other : handle ≠ d.handle) :
    datagramsOf handle ((call, ⟨ret, some d⟩) :: history) = datagramsOf handle history := by
  simp [datagramsOf, other.symm]

theorem payloadType_injective {medium medium' : Medium}
    (same : medium.payloadType = medium'.payloadType) : medium = medium' := by
  cases medium <;> cases medium' <;> simp_all [Medium.payloadType, payloadTypeVideo, payloadTypeAudio]

theorem newObject_sendPt (random : BitVec 32) (session : RtpSession) :
    (newObject random session).sendPt = session.payloadType := rfl

theorem newObject_sndSeq (random : BitVec 32) (session : RtpSession) :
    (newObject random session).sndSeq = 0 := by
  unfold newObject
  cases session.ssrc <;> rfl

/-- Changes of other objects do not matter to an entry. -/
theorem Holds.mono {nextHandle nextHandle' : Nat} {objects objects' : Nat → SendSession}
    {count count' : Nat → Nat} {entry : SessionObj} (holds : Holds nextHandle objects count entry)
    (more : nextHandle ≤ nextHandle')
    (kept : ∀ session, entry.pSession = some session → session.handle < nextHandle →
      objects' session.handle = objects session.handle ∧
        count' session.handle = count session.handle) :
    Holds nextHandle' objects' count' entry := by
  cases holds with
  | free => exact .free
  | used session medium known streams =>
      obtain ⟨sameObject, sameCount⟩ := kept session rfl known
      rw [← sameCount]
      apply Holds.used session medium (known.trans_le more)
      rw [sameObject, sameCount]
      exact streams

theorem Holds.handle_lt {nextHandle : Nat} {objects : Nat → SendSession} {count : Nat → Nat}
    {entry : SessionObj} (holds : Holds nextHandle objects count entry) {session : RtpSession}
    (live : entry.pSession = some session) : session.handle < nextHandle := by
  cases holds with
  | free => cases live
  | used held medium known streams =>
      cases live
      exact known

theorem Holds.eq_free {nextHandle : Nat} {objects : Nat → SendSession} {count : Nat → Nat}
    {entry : SessionObj} (holds : Holds nextHandle objects count entry)
    (isFree : entry.pSession = none) : entry = ⟨none, 0, 0⟩ := by
  cases holds with
  | free => rfl
  | used => cases isFree

theorem Holds.eq_used {nextHandle : Nat} {objects : Nat → SendSession} {count : Nat → Nat}
    {entry : SessionObj} (holds : Holds nextHandle objects count entry) {session : RtpSession}
    (live : entry.pSession = some session) :
    ∃ medium, Streams medium (objects session.handle) (count session.handle) ∧
      entry = ⟨some session, stampAt medium (count session.handle), medium.timeStampInc⟩ := by
  cases holds with
  | free => cases live
  | used held medium known streams =>
      cases live
      exact ⟨medium, streams, rfl⟩

theorem rtpSend_effect {m : SessionMgr} {sessionID : Int} {buffer : Nat} {len : Int32}
    {sending : Sending} (done : rtpSend m sessionID buffer len = some sending) :
    sending.sent = none ∧ sending.mgr = m ∨
      ∃ j session, m.live j = some session ∧
        sending = ⟨0, some ⟨session, buffer, len, (m.table j).curTimeStamp⟩, m.advance j⟩ := by
  cases entry_eq : checkedEntry sessionID with
  | none => simp [rtpSend, entry_eq] at done
  | some accepted =>
      cases accepted with
      | none =>
          left
          have kept : sending = ⟨-1, none, m⟩ := by simpa [rtpSend, entry_eq] using done.symm
          rw [kept]
          exact ⟨rfl, rfl⟩
      | some j =>
          cases held : m.live j with
          | none =>
              left
              rw [rtpSend_dead entry_eq held] at done
              cases Option.some.inj done
              exact ⟨rfl, rfl⟩
          | some session =>
              rw [rtpSend_live entry_eq held] at done
              exact .inr ⟨j, session, held, (Option.some.inj done).symm⟩

theorem removeSessionObj_effect {m after : SessionMgr} {sessionID ret : Int}
    (done : removeSessionObj m sessionID = some (ret, after)) :
    after = m ∨ ∃ j, after = m.store j ⟨none, 0, 0⟩ := by
  unfold removeSessionObj at done
  cases entry_eq : checkedEntry sessionID with
  | none => rw [entry_eq] at done; cases done
  | some accepted =>
      rw [entry_eq] at done
      cases accepted with
      | none =>
          cases Option.some.inj done
          exact .inl rfl
      | some j =>
          cases Option.some.inj done
          exact .inr ⟨j, rfl⟩

theorem IsStream.snoc {medium : Medium} {ssrc : BitVec 32} {datagrams : List Datagram}
    {d : Datagram} (stream : IsStream medium ssrc datagrams)
    (next : parsePacket d.bytes = some (streamPacket medium ssrc datagrams.length d.payload)) :
    IsStream medium ssrc (datagrams ++ [d]) := by
  unfold IsStream at stream ⊢
  rw [List.map_append, stream, List.mapIdx_concat, List.map_singleton, next]

/-- The next packet of an object continues its stream. -/
theorem packetOf_eq {medium : Medium} {object : SendSession} {k : Nat}
    (streams : Streams medium object k) (payload : List Byte) :
    packetOf object payload (stampAt medium k).toBitVec =
      streamPacket medium object.sendSsrc k payload := by
  have paytype : BitVec.ofInt 7 object.sendPt = BitVec.ofNat 7 medium.payloadType := by
    rw [streams.sendPt, BitVec.ofInt_natCast]
  simp only [packetOf, newHeader, streamPacket, paytype, streams.sndSeq]

namespace Invariant

/-- A call that sends nothing, makes no object and only frees entries. -/
theorem frees {history : History} {s : Wire} (before : Invariant history s) {m : SessionMgr}
    (call : Call) (ret : Int) (sameHandle : m.nextHandle = s.mgr.nextHandle)
    (freed : ∀ i, m.table i = s.mgr.table i ∨ m.table i = ⟨none, 0, 0⟩) :
    Invariant ((call, ⟨ret, none⟩) :: history) { s with mgr := m } := by
  have wasLive : ∀ i session, m.live i = some session → s.mgr.live i = some session := by
    intro i session live
    rcases freed i with same | cleared
    · rw [SessionMgr.live, ← same]
      exact live
    · rw [SessionMgr.live, cleared] at live
      cases live
  constructor
  · intro i
    change Holds m.nextHandle s.objects _ (m.table i)
    simp only [datagramsOf_silent, sameHandle]
    rcases freed i with same | cleared
    · rw [same]
      exact before.holds i
    · rw [cleared]
      exact .free
  · intro i j session session' first second same
    exact before.apart i j session session' (wasLive i session first) (wasLive j session' second) same
  · intro handle known
    simp only [datagramsOf_silent]
    exact before.streams handle (sameHandle ▸ known)
  · intro handle fresh
    simp only [datagramsOf_silent]
    exact before.unborn handle (sameHandle ▸ fresh)

theorem create {history : History} {s : Wire} (before : Invariant history s) (call : Call)
    (medium : Medium) (ipStr : String) (port : Int) {i : Fin maxSessionNum}
    (free : s.mgr.live i = none) (ret : Int) :
    Invariant ((call, ⟨ret, none⟩) :: history)
      ⟨s.mgr.publish i (newSession s.mgr ipStr port medium.payloadType) medium.timeStampInc,
        Function.update s.objects s.mgr.nextHandle
          (newObject call.random (newSession s.mgr ipStr port medium.payloadType))⟩ := by
  have oldHandle : ∀ j session, s.mgr.live j = some session → session.handle < s.mgr.nextHandle :=
    fun j session live => (before.holds j).handle_lt live
  have none := before.unborn s.mgr.nextHandle (Nat.le_refl _)
  constructor
  · intro j
    simp only [datagramsOf_silent]
    by_cases same : j = i
    · rw [same]
      have entry := (before.holds i).eq_free free
      have zero : stampAt medium 0 = 0 := by simp [stampAt]
      have published : (s.mgr.publish i (newSession s.mgr ipStr port medium.payloadType)
          medium.timeStampInc).table i =
            ⟨some (newSession s.mgr ipStr port medium.payloadType),
              stampAt medium (datagramsOf s.mgr.nextHandle history).length,
              medium.timeStampInc⟩ := by
        simp [SessionMgr.publish, SessionMgr.store, entry, none, zero]
      change Holds (s.mgr.nextHandle + 1) _ _
        ((s.mgr.publish i (newSession s.mgr ipStr port medium.payloadType)
          medium.timeStampInc).table i)
      rw [published]
      apply Holds.used (newSession s.mgr ipStr port medium.payloadType) medium (Nat.lt_succ_self _)
      change Streams medium (Function.update s.objects s.mgr.nextHandle _ s.mgr.nextHandle)
        (datagramsOf s.mgr.nextHandle history).length
      rw [Function.update_self, none]
      exact ⟨newObject_sendPt _ _, newObject_sndSeq _ _⟩
    · have kept : (s.mgr.publish i (newSession s.mgr ipStr port medium.payloadType)
          medium.timeStampInc).table j = s.mgr.table j := by
        simp [SessionMgr.publish, SessionMgr.store, same]
      change Holds (s.mgr.nextHandle + 1) _ _
        ((s.mgr.publish i (newSession s.mgr ipStr port medium.payloadType)
          medium.timeStampInc).table j)
      rw [kept]
      apply (before.holds j).mono (Nat.le_succ _)
      intro session live known
      exact ⟨Function.update_of_ne (Nat.ne_of_lt known) _ _, rfl⟩
  · intro j k session session' first second same
    change (s.mgr.publish i _ _).live j = some session at first
    change (s.mgr.publish i _ _).live k = some session' at second
    by_cases jHere : j = i
    · by_cases kHere : k = i
      · rw [jHere, kHere]
      · rw [publish_live_ne kHere] at second
        rw [jHere, publish_live_self] at first
        have older := oldHandle k session' second
        cases first
        rw [← same] at older
        exact absurd older (Nat.lt_irrefl _)
    · rw [publish_live_ne jHere] at first
      by_cases kHere : k = i
      · rw [kHere, publish_live_self] at second
        have older := oldHandle j session first
        cases second
        rw [same] at older
        exact absurd older (Nat.lt_irrefl _)
      · rw [publish_live_ne kHere] at second
        exact before.apart j k session session' first second same
  · intro handle known
    simp only [datagramsOf_silent]
    by_cases new : handle = s.mgr.nextHandle
    · refine ⟨medium, ?_, ?_⟩
      · change (Function.update s.objects s.mgr.nextHandle _ handle).sendPt = _
        rw [new, Function.update_self]
        exact newObject_sendPt _ _
      · rw [new, none]
        rfl
    · have older : handle < s.mgr.nextHandle := Nat.lt_of_le_of_ne (Nat.le_of_lt_succ known) new
      obtain ⟨medium', pt, stream⟩ := before.streams handle older
      refine ⟨medium', ?_, ?_⟩
      · change (Function.update s.objects s.mgr.nextHandle _ handle).sendPt = _
        rw [Function.update_of_ne new]
        exact pt
      · change IsStream medium' (Function.update s.objects s.mgr.nextHandle _ handle).sendSsrc _
        rw [Function.update_of_ne new]
        exact stream
  · intro handle fresh
    simp only [datagramsOf_silent]
    exact before.unborn handle (Nat.le_of_succ_le fresh)

theorem send {history : History} {s : Wire} (before : Invariant history s) (call : Call)
    {j : Fin maxSessionNum} {session : RtpSession} (live : s.mgr.live j = some session)
    (memory : Nat → Byte) (buffer : Nat) (len : Int32) (ret : Int) :
    Invariant
      ((call, ⟨ret, some (Wire.transmit { s with mgr := s.mgr.advance j } memory
        ⟨session, buffer, len, (s.mgr.table j).curTimeStamp⟩).1⟩) :: history)
      (Wire.transmit { s with mgr := s.mgr.advance j } memory
        ⟨session, buffer, len, (s.mgr.table j).curTimeStamp⟩).2 := by
  generalize sent : Wire.transmit { s with mgr := s.mgr.advance j } memory
    ⟨session, buffer, len, (s.mgr.table j).curTimeStamp⟩ = result
  obtain ⟨d, after⟩ := result
  have handle_eq : d.handle = session.handle := by
    rw [← congrArg (fun r => r.1.handle) sent]
    rfl
  have objects_eq : after.objects = Function.update s.objects session.handle
      (sendWithTs (s.objects session.handle) d.payload (s.mgr.table j).curTimeStamp.toBitVec).2 := by
    rw [← congrArg (fun r => r.2.objects) sent, ← congrArg (fun r => r.1.payload) sent]
    rfl
  have mgr_eq : after.mgr = s.mgr.advance j := by
    rw [← congrArg (fun r => r.2.mgr) sent]
    rfl
  have nextHandle_eq : after.mgr.nextHandle = s.mgr.nextHandle := by
    rw [mgr_eq]
    rfl
  have bytes_eq : parsePacket d.bytes = some (packetOf (s.objects session.handle) d.payload
      (s.mgr.table j).curTimeStamp.toBitVec) := by
    rw [← congrArg (fun r => r.1.bytes) sent, ← congrArg (fun r => r.1.payload) sent]
    exact parsePacket_sendWithTs _ _ _
  have known := (before.holds j).handle_lt live
  obtain ⟨medium, streams, entry⟩ := (before.holds j).eq_used live
  have read : parsePacket d.bytes = some (streamPacket medium (s.objects session.handle).sendSsrc
      (datagramsOf session.handle history).length d.payload) := by
    rw [bytes_eq, entry, packetOf_eq streams]
  have mine : datagramsOf session.handle ((call, ⟨ret, some d⟩) :: history) =
      datagramsOf session.handle history ++ [d] := by
    rw [← handle_eq]
    exact datagramsOf_sent
  have others : ∀ handle, handle ≠ session.handle →
      datagramsOf handle ((call, ⟨ret, some d⟩) :: history) = datagramsOf handle history := by
    intro handle other
    exact datagramsOf_other (handle_eq ▸ other)
  constructor
  · intro i
    rw [objects_eq, nextHandle_eq, mgr_eq]
    by_cases same : i = j
    · have advanced : (s.mgr.advance j).table i = ⟨some session,
          stampAt medium (datagramsOf session.handle ((call, ⟨ret, some d⟩) :: history)).length,
          medium.timeStampInc⟩ := by
        rw [same, mine, List.length_append, List.length_singleton, ← stampAt_succ]
        simp [SessionMgr.advance, SessionMgr.store, entry]
      rw [advanced]
      apply Holds.used session medium known
      rw [Function.update_self, mine, List.length_append, List.length_singleton]
      refine ⟨streams.sendPt, ?_⟩
      change (s.objects session.handle).sndSeq + 1 = _
      rw [streams.sndSeq, BitVec.ofNat_add]
      rfl
    · have kept : (s.mgr.advance j).table i = s.mgr.table i := by
        simp [SessionMgr.advance, SessionMgr.store, same]
      rw [kept]
      apply (before.holds i).mono (Nat.le_refl _)
      intro session' live' _
      have differs : session'.handle ≠ session.handle := by
        intro sameHandle
        exact same (before.apart i j session' session live' live sameHandle)
      exact ⟨Function.update_of_ne differs _ _, congrArg List.length (others _ differs)⟩
  · intro i k first second live₁ live₂ sameHandle
    rw [mgr_eq, advance_live] at live₁ live₂
    exact before.apart i k first second live₁ live₂ sameHandle
  · intro handle inside
    rw [nextHandle_eq] at inside
    rw [objects_eq]
    by_cases same : handle = session.handle
    · obtain ⟨medium', pt, stream⟩ := before.streams session.handle known
      have agree : medium' = medium := by
        apply payloadType_injective
        exact Int.ofNat.inj (pt.symm.trans streams.sendPt)
      rw [same, Function.update_self, mine]
      rw [agree] at stream
      exact ⟨medium, streams.sendPt, stream.snoc read⟩
    · rw [Function.update_of_ne same, others handle same]
      exact before.streams handle inside
  · intro handle fresh
    rw [nextHandle_eq] at fresh
    rw [others handle (Nat.ne_of_gt (known.trans_le fresh))]
    exact before.unborn handle fresh

theorem step {history : History} {s after : Wire} {event : Call × Outcome}
    (before : Invariant history s) (taken : ExecStep wireExec s event after) :
    Invariant (event :: history) after := by
  obtain ⟨call, outcome⟩ := event
  change wireExec s call = some (outcome, after) at taken
  unfold wireExec at taken
  cases op : call.op with
  | rtpInit getenvSSRC =>
      rw [op] at taken
      cases taken
      apply before.frees (m := rtpInit getenvSSRC s.mgr) call 0 rfl
      intro i
      exact .inr rfl
  | createRtpSession medium ipStr port =>
      rw [op] at taken
      dsimp only at taken
      have creates := creates_medium medium s.mgr ipStr port
      generalize createRtpSession s.mgr ipStr port medium.sessionType = creation at creates taken
      cases creates with
      | full used =>
          cases taken
          exact before.frees call (-1) rfl fun i => .inl rfl
      | made i free first =>
          cases taken
          exact before.create call medium ipStr port free _
  | rtpSend sessionID buffer len sendBytes =>
      rw [op] at taken
      dsimp only at taken
      split at taken
      · cases taken
      · rename_i sending done
        rcases rtpSend_effect done with ⟨silent, kept⟩ | ⟨j, session, live, effect⟩
        · rw [silent] at taken
          cases taken
          rw [kept]
          exact before.frees call _ rfl fun i => .inl rfl
        · rw [effect] at taken
          dsimp only at taken
          split at taken
          · cases taken
          · cases taken
            exact before.send call live call.memory buffer len 0
  | removeSessionObj sessionID =>
      rw [op] at taken
      obtain ⟨⟨ret, m⟩, done, same⟩ := Option.map_eq_some_iff.mp taken
      cases same
      rcases removeSessionObj_effect done with kept | ⟨j, cleared⟩
      · rw [kept]
        exact before.frees call ret rfl fun i => .inl rfl
      · rw [cleared]
        apply before.frees (m := s.mgr.store j ⟨none, 0, 0⟩) call ret rfl
        intro i
        by_cases same : i = j
        · right
          simp [SessionMgr.store, same]
        · left
          simp [SessionMgr.store, same]

end Invariant

/-- The state the program starts in. -/
def wireStart (objects : Nat → SendSession) : Wire := ⟨Server.zero.rtp, objects⟩

theorem invariant_of_run {objects : Nat → SendSession} {history : History} {s : Wire}
    (run : Run (ExecStep wireExec) (wireStart objects) history s) : Invariant history s := by
  apply run.invariant Invariant
  · refine ⟨fun i => .free, ?_, ?_, fun handle _ => rfl⟩
    · intro i j session session' live
      cases live
    · intro handle known
      exact absurd known (Nat.not_lt_zero _)
  · intro _ _ _ _ _ before taken
    exact before.step taken

/-- A datagram carries the bytes that its call found in the buffer. -/
def Carries (event : Call × Outcome) : Prop :=
  ∀ d, event.2.sent = some d → ∃ sessionID buffer len sendBytes,
    event.1.op = .rtpSend sessionID buffer len sendBytes ∧
      d.payload = payloadAt event.1.memory buffer len

theorem carries_of_step {s after : Wire} {event : Call × Outcome}
    (taken : ExecStep wireExec s event after) : Carries event := by
  obtain ⟨call, outcome⟩ := event
  change wireExec s call = some (outcome, after) at taken
  intro d sent
  change outcome.sent = some d at sent
  unfold wireExec at taken
  cases op : call.op with
  | rtpInit getenvSSRC =>
      rw [op] at taken
      cases taken
      cases sent
  | createRtpSession medium ipStr port =>
      rw [op] at taken
      cases taken
      cases sent
  | rtpSend sessionID buffer len sendBytes =>
      rw [op] at taken
      dsimp only at taken
      split at taken
      · cases taken
      · rename_i sending done
        rcases rtpSend_effect done with ⟨silent, kept⟩ | ⟨j, session, live, effect⟩
        · rw [silent] at taken
          cases taken
          cases sent
        · rw [effect] at taken
          dsimp only at taken
          split at taken
          · cases taken
          · cases taken
            cases sent
            exact ⟨sessionID, buffer, len, sendBytes, rfl, rfl⟩
  | removeSessionObj sessionID =>
      rw [op] at taken
      obtain ⟨⟨ret, m⟩, done, same⟩ := Option.map_eq_some_iff.mp taken
      cases same
      cases sent

/-- The stream of an object is of the medium whose payload type it sends. -/
theorem streams_of_run {objects : Nat → SendSession} {history : History} {s : Wire}
    (run : Run (ExecStep wireExec) (wireStart objects) history s) {handle : Nat} {medium : Medium}
    (sends : (s.objects handle).sendPt = medium.payloadType) :
    IsStream medium (s.objects handle).sendSsrc (datagramsOf handle history) := by
  have inv := invariant_of_run run
  by_cases known : handle < s.mgr.nextHandle
  · obtain ⟨medium', pt, stream⟩ := inv.streams handle known
    have same : medium' = medium := by
      apply payloadType_injective
      exact Int.ofNat.inj (pt.symm.trans sends)
    rw [same] at stream
    exact stream
  · rw [inv.unborn handle (Nat.le_of_not_lt known)]
    rfl

/-- A video session that sends two packets. -/
def twoPackets : List Call :=
  [.rtpInit none, .createRtpSession .video "10.0.0.2" 9000, .rtpSend 0 40 3 (-1),
    .rtpSend 0 64 2 (-1)].map fun op => ⟨op, BitVec.ofNat 8, 7⟩

theorem twoPackets_defined :
    (execAll wireExec twoPackets ([], wireStart fun _ => rtpSessionNew 0)).isSome = true := by
  decide

def twoRun : History × Wire :=
  (execAll wireExec twoPackets ([], wireStart fun _ => rtpSessionNew 0)).get twoPackets_defined

theorem run_twoRun :
    Run (ExecStep wireExec) (wireStart fun _ => rtpSessionNew 0) twoRun.1 twoRun.2 :=
  execAll_run .nil (Option.some_get twoPackets_defined).symm

example : (datagramsOf 0 twoRun.1).map (fun d => d.payload) = [[40, 41, 42], [64, 65]] := by
  decide

end DvsServer.Core.WireStreams
