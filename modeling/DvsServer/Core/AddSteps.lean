import DvsServer.Core.SessionOps

/-!
# The atomic steps of `add_client`

`add_client` chooses a slot, makes its sessions one by one and marks the slot
used at the end.  Here these are separate steps on the shared tables.  A thread
that takes them without interruption computes what the sequential function
does: the result of what is left to do is the same before and after each step.
-/

namespace DvsServer.Core.Session

open DvsServer.Lib DvsServer.Com.RtpSend

structure AddCall where
  destIp : String
  baseVideoPort : Int
  baseAudioPort : Int

def AddCall.base (call : AddCall) : Medium → Int := basePort call.baseVideoPort call.baseAudioPort

/-- The sequential call. -/
def AddCall.add (chs : Int) (call : AddCall) (s : Server) : Option Adding :=
  addClient chs s call.destIp call.baseVideoPort call.baseAudioPort

/-- The result of `add_client` when a session for the medium cannot be created. -/
def Medium.failure : Medium → Int
  | .video => -2
  | .audio => -3

/-- Where a thread stands in `add_client`; `i` is the loop counter. -/
inductive Adder where
  | start
  | alloc (id : Fin maxClientNum) (medium : Medium) (i : Nat)
  | create (id : Fin maxClientNum) (medium : Medium) (i : Nat) (newSessionID : Fin maxSessionNum)
  | publish (id : Fin maxClientNum) (medium : Medium) (i : Nat) (newSessionID : Fin maxSessionNum)
      (session : RtpSession)
  | record (id : Fin maxClientNum) (medium : Medium) (i : Nat) (ret : Int)
  | mark (id : Fin maxClientNum)
  | finish (id : Fin maxClientNum)
  | returned (ret : Int)

/-- What a step did; a publication shows what the entry held before. -/
inductive AddAct where
  | scan (id : Option (Fin maxClientNum))
  | alloc (newSessionID : Option (Fin maxSessionNum))
  | create (session : RtpSession)
  | publish (newSessionID : Fin maxSessionNum) (session : RtpSession) (before : Option RtpSession)
  | record (ret : Int)
  | mark
  | finish

/-- The head of the audio loop. -/
def AddCall.audioLoop (chs : Int) (call : AddCall) (id : Fin maxClientNum) (i : Nat) : Adder :=
  if call.baseAudioPort > 0 ∧ i < groups chs then .alloc id .audio i else .mark id

/-- The head of a session loop, and what follows the loop. -/
def AddCall.loop (chs : Int) (call : AddCall) (id : Fin maxClientNum) : Medium → Nat → Adder
  | .video, i =>
      if call.baseVideoPort > 0 ∧ i < groups chs then .alloc id .video i else call.audioLoop chs id 0
  | .audio, i => call.audioLoop chs id i

/-- The store to `videoIDs[i]` or `audioIDs[i]`. -/
def Server.recordID (s : Server) (id : Fin maxClientNum) (medium : Medium) (g : Fin maxGroupNum)
    (ret : Int) : Server :=
  recordCreation medium id g ⟨ret, none, s.rtp⟩ s

def addStep (chs : Int) (call : AddCall) : Adder → Server → Option (AddAct × Adder × Server)
  | .start, s =>
      match firstFree (fun client => client.clientID == -1) s.clients with
      | none => some (.scan none, .returned (-1), s)
      | some id => some (.scan (some id), call.loop chs id .video 0, s)
  | .alloc id medium i, s =>
      match allocSessionID s.rtp with
      | none => some (.alloc none, .record id medium i (-1), s)
      | some newSessionID =>
          some (.alloc (some newSessionID), .create id medium i newSessionID, s)
  | .create id medium i newSessionID, s =>
      let session := newSession s.rtp call.destIp (medium.port (call.base medium) i)
        medium.payloadType
      some (.create session, .publish id medium i newSessionID session,
        { s with rtp := s.rtp.prepare newSessionID medium.timeStampInc })
  | .publish id medium i newSessionID session, s =>
      some (.publish newSessionID session (s.rtp.live newSessionID),
        .record id medium i newSessionID, { s with rtp := s.rtp.place newSessionID session })
  | .record id medium i ret, s =>
      match index? maxGroupNum i with
      | none => none
      | some g =>
          some (.record ret, if ret < 0 then .returned medium.failure else call.loop chs id medium (i + 1),
            s.recordID id medium g ret)
  | .mark id, s => some (.mark, .finish id, s.setClient id { s.clients id with clientID := id })
  | .finish id, s =>
      some (.finish, .returned (s.clients id).clientID,
        s.setClient id { s.clients id with flag := fun _ => false })
  | .returned _, _ => none

/-! ## What is left to do -/

/-- A result that counts sessions made earlier. -/
def Adding.after (made : List RtpSession) (adding : Adding) : Adding :=
  { adding with created := made ++ adding.created }

/-- From the end of the audio loop to the return. -/
def AddCall.fromAudio (id : Fin maxClientNum) (made : List RtpSession) :
    Option (Bool × List RtpSession × Server) → Option Adding
  | none => none
  | some (false, more, s) => some ⟨-3, made ++ more, s⟩
  | some (true, more, s) =>
      some ⟨id, made ++ more, s.setClient id { s.clients id with clientID := id, flag := fun _ => false }⟩

/-- From the end of the video loop to the return. -/
def AddCall.fromVideo (chs : Int) (call : AddCall) (id : Fin maxClientNum) (made : List RtpSession) :
    Option (Bool × List RtpSession × Server) → Option Adding
  | none => none
  | some (false, more, s) => some ⟨-2, made ++ more, s⟩
  | some (true, more, s) =>
      AddCall.fromAudio id (made ++ more)
        (createSessions .audio chs call.destIp call.baseAudioPort id s)

/-- From the end of a session loop to the return. -/
def AddCall.fromLoop (chs : Int) (call : AddCall) (id : Fin maxClientNum) :
    Medium → List RtpSession → Option (Bool × List RtpSession × Server) → Option Adding
  | .video, made, result => call.fromVideo chs id made result
  | .audio, made, result => AddCall.fromAudio id made result

/-- A pass of a session loop from the call of `create_rtp_session` on. -/
def AddCall.fromCreation (call : AddCall) (medium : Medium) (id : Fin maxClientNum) (k i : Nat)
    (creation : Creation) (s : Server) : Option (Bool × List RtpSession × Server) :=
  match index? maxGroupNum i with
  | none => none
  | some g =>
      let next := recordCreation medium id g creation s
      if creation.ret < 0 then some (false, creation.session.toList, next)
      else
        match createLoop medium call.destIp (call.base medium) id k (i + 1) next with
        | none => none
        | some (ok, created, last) => some (ok, creation.session.toList ++ created, last)

/-- What the thread will return if nobody interferes; `made` are the sessions it
has made so far. -/
def AddCall.remaining (chs : Int) (call : AddCall) :
    Adder → List RtpSession → Server → Option Adding
  | .start, made, s => (call.add chs s).map (Adding.after made)
  | .alloc id medium i, made, s =>
      call.fromLoop chs id medium made
        (createLoop medium call.destIp (call.base medium) id (groups chs - i) i s)
  | .create id medium i newSessionID, made, s =>
      let session := newSession s.rtp call.destIp (medium.port (call.base medium) i)
        medium.payloadType
      call.fromLoop chs id medium made (call.fromCreation medium id (groups chs - (i + 1)) i
        ⟨newSessionID, some session, s.rtp.publish newSessionID session medium.timeStampInc⟩ s)
  | .publish id medium i newSessionID session, made, s =>
      call.fromLoop chs id medium made (call.fromCreation medium id (groups chs - (i + 1)) i
        ⟨newSessionID, some session, s.rtp.place newSessionID session⟩ s)
  | .record id medium i ret, made, s =>
      call.fromLoop chs id medium made (call.fromCreation medium id (groups chs - (i + 1)) i
        ⟨ret, none, s.rtp⟩ s)
  | .mark id, made, s =>
      some ⟨id, made, s.setClient id { s.clients id with clientID := id, flag := fun _ => false }⟩
  | .finish id, made, s =>
      some ⟨(s.clients id).clientID, made, s.setClient id { s.clients id with flag := fun _ => false }⟩
  | .returned ret, made, s => some ⟨ret, made, s⟩

theorem remaining_start (chs : Int) (call : AddCall) (s : Server) :
    call.remaining chs .start [] s = call.add chs s := by
  rw [AddCall.remaining]
  cases call.add chs s <;> rfl

/-- A thread is in a loop only as long as the loop runs. -/
def AddCall.InLoop (chs : Int) (call : AddCall) (medium : Medium) (i : Nat) : Prop :=
  call.base medium > 0 ∧ i < groups chs

/-- Besides, the entry a thread is about to publish to is free, and the slot it
leaves carries its client ID. -/
def AddCall.Ok (chs : Int) (call : AddCall) (s : Server) : Adder → Prop
  | .start => True
  | .alloc _ medium i => call.InLoop chs medium i
  | .create _ medium i newSessionID =>
      call.InLoop chs medium i ∧ s.rtp.live newSessionID = none
  | .publish _ medium i newSessionID _ =>
      call.InLoop chs medium i ∧ s.rtp.live newSessionID = none
  | .record _ medium i _ => call.InLoop chs medium i
  | .mark _ => True
  | .finish id => (s.clients id).clientID = id
  | .returned _ => True

theorem ok_start (chs : Int) (call : AddCall) (s : Server) : call.Ok chs s .start := trivial

theorem createRtpSession_medium (medium : Medium) (m : SessionMgr) (ipStr : String) (port : Int) :
    createRtpSession m ipStr port medium.sessionType =
      match allocSessionID m with
      | none => ⟨-1, none, m⟩
      | some newSessionID =>
          ⟨newSessionID, some (newSession m ipStr port medium.payloadType),
            m.publish newSessionID (newSession m ipStr port medium.payloadType)
              medium.timeStampInc⟩ := by
  cases medium <;> rfl

theorem createLoop_succ (call : AddCall) (medium : Medium) (id : Fin maxClientNum) (k i : Nat)
    (s : Server) :
    createLoop medium call.destIp (call.base medium) id (k + 1) i s =
      call.fromCreation medium id k i
        (createRtpSession s.rtp call.destIp (medium.port (call.base medium) i) medium.sessionType) s :=
  rfl

/-- What is left to do at the head of the audio loop. -/
theorem remaining_audioLoop {chs : Int} {call : AddCall} {id : Fin maxClientNum} {i : Nat}
    (asked : call.baseAudioPort > 0) (made : List RtpSession) (s : Server) :
    call.remaining chs (call.audioLoop chs id i) made s =
      AddCall.fromAudio id made
        (createLoop .audio call.destIp call.baseAudioPort id (groups chs - i) i s) := by
  unfold AddCall.audioLoop
  split
  · rfl
  · rename_i done
    have ended : groups chs - i = 0 := Nat.sub_eq_zero_of_le (Nat.le_of_not_lt fun below =>
      done ⟨asked, below⟩)
    rw [ended, createLoop, AddCall.fromAudio, List.append_nil]
    rfl

theorem remaining_audioStart (chs : Int) (call : AddCall) (id : Fin maxClientNum)
    (made : List RtpSession) (s : Server) :
    call.remaining chs (call.audioLoop chs id 0) made s =
      AddCall.fromAudio id made
        (createSessions .audio chs call.destIp call.baseAudioPort id s) := by
  unfold createSessions
  split
  · rename_i asked
    exact remaining_audioLoop asked made s
  · rename_i unasked
    rw [AddCall.audioLoop, if_neg fun both => unasked both.1, AddCall.fromAudio, List.append_nil]
    rfl

/-- What is left to do at the head of a session loop. -/
theorem remaining_loop {chs : Int} {call : AddCall} {id : Fin maxClientNum} {medium : Medium}
    {i : Nat} (asked : call.base medium > 0) (made : List RtpSession) (s : Server) :
    call.remaining chs (call.loop chs id medium i) made s =
      call.fromLoop chs id medium made
        (createLoop medium call.destIp (call.base medium) id (groups chs - i) i s) := by
  cases medium with
  | audio => exact remaining_audioLoop asked made s
  | video =>
      rw [AddCall.loop]
      split
      · rfl
      · rename_i done
        have ended : groups chs - i = 0 := Nat.sub_eq_zero_of_le (Nat.le_of_not_lt fun below =>
          done ⟨asked, below⟩)
        rw [ended, createLoop, AddCall.fromLoop, AddCall.fromVideo, List.append_nil]
        exact remaining_audioStart chs call id made s

theorem remaining_videoStart (chs : Int) (call : AddCall) (id : Fin maxClientNum)
    (made : List RtpSession) (s : Server) :
    call.remaining chs (call.loop chs id .video 0) made s =
      call.fromVideo chs id made
        (createSessions .video chs call.destIp call.baseVideoPort id s) := by
  unfold createSessions
  split
  · rename_i asked
    have asked' : call.base .video > 0 := asked
    exact remaining_loop asked' made s
  · rename_i unasked
    rw [AddCall.loop, if_neg fun both => unasked both.1, AddCall.fromVideo, List.append_nil]
    exact remaining_audioStart chs call id made s

theorem loop_ok (chs : Int) (call : AddCall) (s : Server) (id : Fin maxClientNum)
    (medium : Medium) (i : Nat) : call.Ok chs s (call.loop chs id medium i) := by
  have audio : ∀ j, call.Ok chs s (call.audioLoop chs id j) := fun j => by
    unfold AddCall.audioLoop
    split
    · rename_i inLoop
      exact inLoop
    · trivial
  cases medium with
  | audio => exact audio i
  | video =>
      rw [AddCall.loop]
      split
      · rename_i inLoop
        exact inLoop
      · exact audio 0

/-- The thread has chosen its slot, or found none. -/
def Adder.started : Adder → Bool
  | .start => false
  | _ => true

theorem loop_started (chs : Int) (call : AddCall) (id : Fin maxClientNum) (medium : Medium)
    (i : Nat) : (call.loop chs id medium i).started = true := by
  have audio : ∀ j, (call.audioLoop chs id j).started = true := fun j => by
    unfold AddCall.audioLoop
    split <;> rfl
  cases medium with
  | audio => exact audio i
  | video =>
      rw [AddCall.loop]
      split
      · rfl
      · exact audio 0

/-! ## One step -/

theorem fromLoop_made (chs : Int) (call : AddCall) (id : Fin maxClientNum) (medium : Medium)
    (made more : List RtpSession) (result : Option (Bool × List RtpSession × Server)) :
    call.fromLoop chs id medium (made ++ more) result =
      call.fromLoop chs id medium made
        (result.map fun (ok, created, last) => (ok, more ++ created, last)) := by
  cases result with
  | none => cases medium <;> rfl
  | some result =>
      obtain ⟨ok, created, last⟩ := result
      cases medium <;> cases ok <;>
        simp only [AddCall.fromLoop, AddCall.fromVideo, AddCall.fromAudio, Option.map_some,
          List.append_assoc]

/-- Storing the session and then its ID is one pass of the sequential loop. -/
theorem fromCreation_placed (call : AddCall) (medium : Medium) (id : Fin maxClientNum) (k i : Nat)
    (newSessionID : Fin maxSessionNum) (session : RtpSession) (m : SessionMgr) (s : Server) :
    call.fromCreation medium id k i ⟨newSessionID, some session, m⟩ s =
      (call.fromCreation medium id k i ⟨newSessionID, none, m⟩ { s with rtp := m }).map
        fun (ok, created, last) => (ok, [session] ++ created, last) := by
  unfold AddCall.fromCreation
  cases index? maxGroupNum i with
  | none => rfl
  | some g =>
      have same : recordCreation medium id g ⟨newSessionID, some session, m⟩ s =
          recordCreation medium id g ⟨newSessionID, none, m⟩ { s with rtp := m } := rfl
      dsimp only
      rw [same]
      split
      · rfl
      · cases createLoop medium call.destIp (call.base medium) id k (i + 1)
            (recordCreation medium id g ⟨newSessionID, none, m⟩ { s with rtp := m }) with
        | none => rfl
        | some result => rfl

/-- The sequential call from the choice of the slot on. -/
theorem add_scanned {chs : Int} {call : AddCall} {s : Server} {id : Fin maxClientNum}
    (found : firstFree (fun client => client.clientID == -1) s.clients = some id) :
    call.add chs s =
      call.fromVideo chs id [] (createSessions .video chs call.destIp call.baseVideoPort id s) := by
  rw [AddCall.add, addClient, found]
  dsimp only
  cases createSessions .video chs call.destIp call.baseVideoPort id s with
  | none => rfl
  | some result =>
      obtain ⟨ok, video, between⟩ := result
      cases ok with
      | false => rfl
      | true =>
          dsimp only [AddCall.fromVideo]
          cases createSessions .audio chs call.destIp call.baseAudioPort id between with
          | none => rfl
          | some result =>
              obtain ⟨ok, audio, after⟩ := result
              cases ok <;> rfl

theorem fromAudio_after (id : Fin maxClientNum) (made more : List RtpSession)
    (result : Option (Bool × List RtpSession × Server)) :
    (AddCall.fromAudio id more result).map (Adding.after made) =
      AddCall.fromAudio id (made ++ more) result := by
  cases result with
  | none => rfl
  | some result =>
      obtain ⟨ok, audio, after⟩ := result
      cases ok <;> exact congrArg (fun l => some (Adding.mk _ l _)) (List.append_assoc _ _ _).symm

theorem fromVideo_after (chs : Int) (call : AddCall) (id : Fin maxClientNum)
    (made : List RtpSession) (result : Option (Bool × List RtpSession × Server)) :
    (call.fromVideo chs id [] result).map (Adding.after made) = call.fromVideo chs id made result := by
  cases result with
  | none => rfl
  | some result =>
      obtain ⟨ok, video, after⟩ := result
      cases ok with
      | false => rfl
      | true => exact fromAudio_after id made _ _

/-- A step of an undisturbed thread does not change what it will return. -/
theorem addStep_remaining {chs : Int} {call : AddCall} {pc next : Adder} {s after : Server}
    {act : AddAct} (made : List RtpSession) (ok : call.Ok chs s pc)
    (step : addStep chs call pc s = some (act, next, after)) :
    ∃ made', call.remaining chs next made' after = call.remaining chs pc made s := by
  unfold addStep at step
  cases pc with
  | start =>
      refine ⟨made, ?_⟩
      dsimp only at step
      rw [AddCall.remaining]
      split at step
      · rename_i full
        cases Option.some.inj step
        rw [AddCall.add, addClient, full]
        exact congrArg (fun l => some (Adding.mk _ l _)) (List.append_nil made).symm
      · rename_i id found
        cases Option.some.inj step
        rw [remaining_videoStart, add_scanned found, fromVideo_after]
  | alloc id medium i =>
      have pass : groups chs - i = groups chs - (i + 1) + 1 := by
        have := ok.2
        omega
      refine ⟨made, ?_⟩
      dsimp only at step
      rw [AddCall.remaining, pass, createLoop_succ, createRtpSession_medium]
      split at step
      · cases Option.some.inj step
        rfl
      · cases Option.some.inj step
        rfl
  | create id medium i newSessionID =>
      cases Option.some.inj step
      refine ⟨made, ?_⟩
      rw [AddCall.remaining, AddCall.remaining]
      dsimp only
      rw [place_prepare]
      rfl
  | publish id medium i newSessionID session =>
      cases Option.some.inj step
      refine ⟨made ++ [session], ?_⟩
      rw [AddCall.remaining, AddCall.remaining, fromLoop_made, fromCreation_placed]
  | record id medium i ret =>
      refine ⟨made, ?_⟩
      dsimp only at step
      rw [AddCall.remaining, AddCall.fromCreation]
      split at step
      · cases step
      · rename_i g group
        cases Option.some.inj step
        have same : recordCreation medium id g ⟨ret, none, s.rtp⟩ s = s.recordID id medium g ret := rfl
        dsimp only
        rw [same]
        split
        · cases medium <;> exact congrArg (fun l => some (Adding.mk _ l _)) (List.append_nil made).symm
        · rw [remaining_loop ok.1]
          cases createLoop medium call.destIp (call.base medium) id (groups chs - (i + 1)) (i + 1)
              (s.recordID id medium g ret) with
          | none => rfl
          | some result => rfl
  | mark id =>
      cases Option.some.inj step
      refine ⟨made, ?_⟩
      rw [AddCall.remaining, AddCall.remaining, setClient_self, setClient_twice]
  | finish id =>
      cases Option.some.inj step
      exact ⟨made, rfl⟩
  | returned ret => cases step

/-- A publication hits a free entry. -/
def AddAct.Clean : AddAct → Prop
  | .publish _ _ before => before = none
  | _ => True

theorem addStep_ok {chs : Int} {call : AddCall} {pc next : Adder} {s after : Server} {act : AddAct}
    (ok : call.Ok chs s pc) (step : addStep chs call pc s = some (act, next, after)) :
    next.started = true ∧ call.Ok chs after next ∧ act.Clean := by
  unfold addStep at step
  cases pc with
  | start =>
      dsimp only at step
      split at step
      · cases Option.some.inj step
        exact ⟨rfl, trivial, trivial⟩
      · cases Option.some.inj step
        exact ⟨loop_started chs call _ .video 0, loop_ok chs call s _ .video 0, trivial⟩
  | alloc id medium i =>
      dsimp only at step
      split at step
      · cases Option.some.inj step
        exact ⟨rfl, ok, trivial⟩
      · rename_i newSessionID found
        cases Option.some.inj step
        exact ⟨rfl, ⟨ok, allocSessionID_free found⟩, trivial⟩
  | create id medium i newSessionID =>
      cases Option.some.inj step
      refine ⟨rfl, ⟨ok.1, ?_⟩, trivial⟩
      change (s.rtp.prepare newSessionID medium.timeStampInc).live newSessionID = none
      rw [prepare_live]
      exact ok.2
  | publish id medium i newSessionID session =>
      cases Option.some.inj step
      exact ⟨rfl, ok.1, ok.2⟩
  | record id medium i ret =>
      dsimp only at step
      split at step
      · cases step
      · cases Option.some.inj step
        split
        · exact ⟨rfl, trivial, trivial⟩
        · exact ⟨loop_started chs call id medium (i + 1), loop_ok chs call _ id medium (i + 1), trivial⟩
  | mark id =>
      cases Option.some.inj step
      refine ⟨rfl, ?_, trivial⟩
      change ((s.setClient id _).clients id).clientID = id
      rw [setClient_self]
  | finish id =>
      cases Option.some.inj step
      exact ⟨rfl, trivial, trivial⟩
  | returned ret => cases step

end DvsServer.Core.Session
