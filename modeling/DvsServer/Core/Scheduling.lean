import DvsServer.Core.WireStreams
import DvsServer.Ortp.Scheduler

/-!
# The sessions the scheduler visits

`create_rtp_session` turns the scheduling mode of a new session on, and
`rtp_session_destroy` takes it out of the scheduler.  The scheduler thread goes
through its list under the lock, so it must find live objects there.
-/

namespace DvsServer.Core.Scheduling

open DvsServer.Lib DvsServer.Com.RtpSend DvsServer.Core.Session DvsServer.Core.TimeStamps
open DvsServer.Ortp.Scheduler

structure Sessions where
  mgr : SessionMgr
  sched : RtpScheduler

/-- The calls on `g_rtpSessionMgr` behind `rtp_init`, with what they do to the
scheduler. -/
def schedulingExec (s : Sessions) : RtpOp → Option (Int × Sessions)
  | .rtpInit _ => none
  | .createRtpSession medium ipStr port =>
      let creation := createRtpSession s.mgr ipStr port medium.sessionType
      let sched := match creation.session with
        | none => s.sched
        | some session =>
            rtpSchedulerAddSession (s.sched.clearSession session.handle) session.handle
      some (creation.ret, ⟨creation.mgr, sched⟩)
  | .rtpSend sessionID buffer len _ =>
      (rtpSend s.mgr sessionID buffer len).map fun sending =>
        (sending.ret, { s with mgr := sending.mgr })
  | .removeSessionObj sessionID =>
      match checkedEntry sessionID with
      | none => none
      | some none => some (-1, s)
      | some (some i) =>
          let sched := match s.mgr.live i with
            | none => s.sched
            | some session => rtpSchedulerRemoveSession s.sched session.handle
          some (0, ⟨s.mgr.store i ⟨none, 0, 0⟩, sched⟩)

/-- The table changes as it does without the scheduler. -/
theorem rtpExec_of_schedulingExec {s next : Sessions} {op : RtpOp} {ret : Int}
    (taken : schedulingExec s op = some (ret, next)) :
    ∃ outcome, rtpExec s.mgr op = some (outcome, next.mgr) ∧ outcome.ret = ret := by
  cases op with
  | rtpInit getenvSSRC => cases taken
  | createRtpSession medium ipStr port =>
      cases taken
      exact ⟨_, rfl, rfl⟩
  | rtpSend sessionID buffer len sendBytes =>
      obtain ⟨sending, done, same⟩ := Option.map_eq_some_iff.mp taken
      cases same
      exact ⟨_, congrArg (Option.map _) done, rfl⟩
  | removeSessionObj sessionID =>
      unfold schedulingExec at taken
      unfold rtpExec removeSessionObj
      dsimp only at taken ⊢
      rcases entry : checkedEntry sessionID with _ | _ | i
      · rw [entry] at taken
        cases taken
      · rw [entry] at taken
        cases taken
        exact ⟨⟨-1, none⟩, rfl, rfl⟩
      · rw [entry] at taken
        cases taken
        exact ⟨⟨0, none⟩, rfl, rfl⟩

/-- `rtp_init` -/
def rtpInitialised (getenvSSRC : Option Int) (m : SessionMgr) (sessions : Nat → Scheduled) :
    Sessions := ⟨rtpInit getenvSSRC m, rtpSchedulerInit sessions⟩

/-- The list holds the live sessions, and no two entries share one. -/
structure Tracks (s : Sessions) : Prop where
  sound : Sound s.sched
  listed : ∀ handle, handle ∈ s.sched.list ↔
    ∃ i session, s.mgr.live i = some session ∧ session.handle = handle
  apart : ∀ i j session session', s.mgr.live i = some session → s.mgr.live j = some session' →
    session.handle = session'.handle → i = j
  known : ∀ i session, s.mgr.live i = some session → session.handle < s.mgr.nextHandle

namespace Tracks

variable {s : Sessions}

/-- There are as many listed sessions as live entries, so there is always a
free position in the mask. -/
theorem length_le (tracks : Tracks s) : s.sched.list.length ≤ maxSessionNum := by
  have chosen : ∀ handle ∈ s.sched.list, ∃ i session,
      s.mgr.live i = some session ∧ session.handle = handle :=
    fun handle inside => (tracks.listed handle).mp inside
  choose! place session live same using chosen
  have injective : Set.InjOn place (↑s.sched.list.toFinset : Set Nat) := by
    intro one first two second equal
    have inOne : one ∈ s.sched.list := by simpa using first
    have inTwo : two ∈ s.sched.list := by simpa using second
    have liveOne := live one inOne
    have liveTwo := live two inTwo
    rw [equal, liveTwo] at liveOne
    rw [← same one inOne, ← same two inTwo, Option.some.inj liveOne]
  have few := Finset.card_le_card_of_injOn place (fun _ _ => Finset.mem_univ _) injective
  rw [List.toFinset_card_of_nodup tracks.sound.nodup, Finset.card_univ, Fintype.card_fin] at few
  exact few

theorem fresh (tracks : Tracks s) : s.mgr.nextHandle ∉ s.sched.list := by
  intro inside
  obtain ⟨i, session, live, same⟩ := (tracks.listed _).mp inside
  have below := tracks.known i session live
  rw [same] at below
  exact Nat.lt_irrefl _ below

theorem create (tracks : Tracks s) {i : Fin maxSessionNum} (free : s.mgr.live i = none)
    (session : RtpSession) (inc : UInt32) (new : session.handle = s.mgr.nextHandle) :
    Tracks ⟨s.mgr.publish i session inc, rtpSchedulerAddSession
      (s.sched.clearSession session.handle) session.handle⟩ := by
  have absent : session.handle ∉ s.sched.list := by
    rw [new]
    exact tracks.fresh
  have room : (s.sched.clearSession session.handle).list.length < maxSessions :=
    Nat.lt_of_le_of_lt tracks.length_le (by decide)
  obtain ⟨sound, list⟩ := (tracks.sound.clearSession absent).add absent room
  have kept : (s.sched.clearSession session.handle).list = s.sched.list := rfl
  have live : ∀ j held, (s.mgr.publish i session inc).live j = some held →
      j = i ∧ held = session ∨ j ≠ i ∧ s.mgr.live j = some held := by
    intro j held isLive
    by_cases same : j = i
    · rw [same, publish_live_self] at isLive
      exact .inl ⟨same, (Option.some.inj isLive).symm⟩
    · rw [publish_live_ne same] at isLive
      exact .inr ⟨same, isLive⟩
  constructor
  · exact sound
  · intro handle
    dsimp only
    rw [list, List.mem_cons, kept, tracks.listed]
    constructor
    · rintro (rfl | ⟨j, held, isLive, same⟩)
      · exact ⟨i, session, publish_live_self _ _ _ _, rfl⟩
      · refine ⟨j, held, ?_, same⟩
        have other : j ≠ i := by
          intro equal
          rw [equal, free] at isLive
          cases isLive
        rw [publish_live_ne other]
        exact isLive
    · rintro ⟨j, held, isLive, same⟩
      rcases live j held isLive with ⟨-, rfl⟩ | ⟨-, older⟩
      · exact .inl same.symm
      · exact .inr ⟨j, held, older, same⟩
  · intro j k held held' first second same
    rcases live j held first with ⟨rfl, rfl⟩ | ⟨-, older⟩
    · rcases live k held' second with ⟨rfl, -⟩ | ⟨-, older'⟩
      · rfl
      · have below := tracks.known k held' older'
        rw [← same, new] at below
        exact absurd below (Nat.lt_irrefl _)
    · rcases live k held' second with ⟨rfl, rfl⟩ | ⟨-, older'⟩
      · have below := tracks.known j held older
        rw [same, new] at below
        exact absurd below (Nat.lt_irrefl _)
      · exact tracks.apart j k held held' older older' same
  · intro j held isLive
    change held.handle < s.mgr.nextHandle + 1
    rcases live j held isLive with ⟨-, rfl⟩ | ⟨-, older⟩
    · rw [new]
      exact Nat.lt_succ_self _
    · exact Nat.lt_succ_of_lt (tracks.known j held older)

/-- Calls that keep what the entries hold. -/
theorem keeps (tracks : Tracks s) {m : SessionMgr} (live : ∀ i, m.live i = s.mgr.live i)
    (nextHandle : m.nextHandle = s.mgr.nextHandle) : Tracks ⟨m, s.sched⟩ := by
  constructor
  · exact tracks.sound
  · simp only [live]
    exact tracks.listed
  · simp only [live]
    exact tracks.apart
  · simp only [live, nextHandle]
    exact tracks.known

theorem remove (tracks : Tracks s) {i : Fin maxSessionNum} {session : RtpSession}
    (held : s.mgr.live i = some session) :
    Tracks ⟨s.mgr.store i ⟨none, 0, 0⟩, rtpSchedulerRemoveSession s.sched session.handle⟩ := by
  have listed : session.handle ∈ s.sched.list := (tracks.listed _).mpr ⟨i, session, held, rfl⟩
  obtain ⟨sound, list⟩ := tracks.sound.remove listed
  have live : ∀ j other, (s.mgr.store i ⟨none, 0, 0⟩).live j = some other ↔
      j ≠ i ∧ s.mgr.live j = some other := by
    intro j other
    by_cases same : j = i
    · rw [same, store_live_self]
      simp
    · rw [store_live_ne same]
      simp [same]
  constructor
  · exact sound
  · intro handle
    dsimp only
    rw [list, tracks.sound.nodup.mem_erase_iff, tracks.listed]
    simp only [live]
    constructor
    · rintro ⟨differs, j, other, isLive, same⟩
      refine ⟨j, other, ⟨?_, isLive⟩, same⟩
      intro equal
      rw [equal, held] at isLive
      cases isLive
      exact differs same.symm
    · rintro ⟨j, other, ⟨differs, isLive⟩, same⟩
      refine ⟨?_, j, other, isLive, same⟩
      intro equal
      rw [equal] at same
      exact differs (tracks.apart j i other session isLive held same)
  · intro j k one two first second same
    exact tracks.apart j k one two ((live j one).mp first).2 ((live k two).mp second).2 same
  · intro j other isLive
    exact tracks.known j other ((live j other).mp isLive).2

theorem step (tracks : Tracks s) {event : RtpOp × Int} {next : Sessions}
    (taken : ExecStep schedulingExec s event next) : Tracks next := by
  obtain ⟨op, ret⟩ := event
  change schedulingExec s op = some (ret, next) at taken
  cases op with
  | rtpInit getenvSSRC => cases taken
  | createRtpSession medium ipStr port =>
      have creates := creates_medium medium s.mgr ipStr port
      unfold schedulingExec at taken
      dsimp only at taken
      generalize createRtpSession s.mgr ipStr port medium.sessionType = creation at creates taken
      cases creates with
      | full used =>
          cases taken
          exact tracks
      | made i free first =>
          cases taken
          exact tracks.create free _ _ rfl
  | rtpSend sessionID buffer len sendBytes =>
      obtain ⟨sending, done, same⟩ := Option.map_eq_some_iff.mp taken
      cases same
      rcases WireStreams.rtpSend_effect done with ⟨-, kept⟩ | ⟨j, session, live, effect⟩
      · rw [kept]
        exact tracks
      · rw [effect]
        exact tracks.keeps (fun i => advance_live _ _ _) rfl
  | removeSessionObj sessionID =>
      unfold schedulingExec at taken
      dsimp only at taken
      split at taken
      · cases taken
      · cases taken
        exact tracks
      · rename_i i entry
        split at taken
        · rename_i free
          cases taken
          apply tracks.keeps (m := s.mgr.store i ⟨none, 0, 0⟩) ?_ rfl
          intro j
          by_cases same : j = i
          · rw [same, store_live_self]
            exact free.symm
          · exact store_live_ne same _
        · rename_i session held
          cases taken
          exact tracks.remove held

end Tracks

theorem tracks_init (getenvSSRC : Option Int) (m : SessionMgr) {sessions : Nat → Scheduled}
    (fresh : ∀ session, (sessions session).inScheduler = false) :
    Tracks (rtpInitialised getenvSSRC m sessions) := by
  constructor
  · exact sound_init fresh
  · intro handle
    constructor
    · intro inside
      cases inside
    · rintro ⟨i, session, live, -⟩
      cases live
  · intro i j session session' live
    cases live
  · intro i session live
    cases live

/-- Whatever sessions are created, used and removed after `rtp_init`, the
scheduler's list holds exactly the live ones, once each, so that its thread
visits no destroyed object and forgets no live one; and each owns one position
of the session mask, whose other bits are clear. -/
theorem scheduler_visits_live {getenvSSRC : Option Int} {m : SessionMgr}
    {sessions : Nat → Scheduled} (fresh : ∀ session, (sessions session).inScheduler = false)
    {history : List (RtpOp × Int)} {s : Sessions}
    (run : Run (ExecStep schedulingExec) (rtpInitialised getenvSSRC m sessions) history s) :
    s.sched.list.Nodup ∧
      (∀ handle, handle ∈ s.sched.list ↔
        ∃ i session, s.mgr.live i = some session ∧ session.handle = handle) ∧
      (∀ i, s.sched.allSessions i = true ↔
        ∃! handle, handle ∈ s.sched.list ∧ (s.sched.sessions handle).maskPos = i) := by
  have tracks : Tracks s := by
    apply run.invariant (fun _ s => Tracks s)
    · exact tracks_init getenvSSRC m fresh
    · intro _ _ _ _ _ before taken
      exact before.step taken
  refine ⟨tracks.sound.nodup, tracks.listed, ?_⟩
  intro i
  constructor
  · intro set
    obtain ⟨handle, listed, place⟩ := tracks.sound.owned i set
    refine ⟨handle, ⟨listed, place⟩, ?_⟩
    rintro other ⟨listed', place'⟩
    exact tracks.sound.apart other listed' handle listed (place'.trans place.symm)
  · rintro ⟨handle, ⟨listed, place⟩, -⟩
    rw [← place]
    exact tracks.sound.marked handle listed

/-- Two sessions are created, the first is removed and a third one made. -/
theorem scheduler_visits_live_reuse : ∃ history s,
    execAll schedulingExec
        [.createRtpSession .video "10.0.0.2" 9000, .createRtpSession .audio "10.0.0.2" 9002,
          .removeSessionObj 0, .createRtpSession .video "10.0.0.3" 9000]
        ([], rtpInitialised none Server.zero.rtp fun _ => ⟨0, false⟩) = some (history, s) ∧
      s.sched.list.Nodup ∧
      (∀ handle, handle ∈ s.sched.list ↔
        ∃ i session, s.mgr.live i = some session ∧ session.handle = handle) ∧
      (∀ i, s.sched.allSessions i = true ↔
        ∃! handle, handle ∈ s.sched.list ∧ (s.sched.sessions handle).maskPos = i) := by
  obtain ⟨result, executed⟩ := Option.isSome_iff_exists.mp (by decide : (execAll schedulingExec
    [.createRtpSession .video "10.0.0.2" 9000, .createRtpSession .audio "10.0.0.2" 9002,
      .removeSessionObj 0, .createRtpSession .video "10.0.0.3" 9000]
    ([], rtpInitialised none Server.zero.rtp fun _ => ⟨0, false⟩)).isSome)
  exact ⟨result.1, result.2, executed,
    scheduler_visits_live (fun _ => rfl) (execAll_run .nil executed)⟩

end DvsServer.Core.Scheduling
