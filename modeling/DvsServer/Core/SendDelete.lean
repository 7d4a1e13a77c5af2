import DvsServer.Core.SessionRun

/-!
# The atomic steps of `send_to_client` and `del_client`

A sub-session thread sends a frame while a connection thread deletes a client.
Every test and the use it guards are separate steps, and so are the destruction
of a session and the clearing of its entry.  A history of the steps tells which
sessions were destroyed and which call of oRTP is under way.
-/

namespace DvsServer.Core.Session

open DvsServer.Lib DvsServer.Com.RtpSend

/-! ## The sender -/

/-- Where a thread stands in `send_to_client` and in the functions it calls. -/
inductive SendPc where
  /-- the loop condition, and then the test of `clientID` -/
  | visit (i : Nat)
  /-- before the call of `check_channel` -/
  | check (c : Fin maxClientNum)
  /-- in `check_channel` -/
  | flag (c : Fin maxClientNum) (clientID : Int)
  /-- before the call of `rtp_send` -/
  | route (c : Fin maxClientNum)
  /-- in `rtp_send`, before the tests -/
  | test (c : Fin maxClientNum) (sessionID : Int)
  /-- before `pSession` is read for the oRTP call -/
  | load (c : Fin maxClientNum) (entry : Fin maxSessionNum)
  /-- before the oRTP call -/
  | send (c : Fin maxClientNum) (entry : Fin maxSessionNum) (session : Option RtpSession)
  /-- in the oRTP call -/
  | sending (c : Fin maxClientNum) (entry : Fin maxSessionNum) (session : Option RtpSession)
  /-- before `curTimeStamp` is increased -/
  | stamp (c : Fin maxClientNum) (entry : Fin maxSessionNum)
  | done
deriving DecidableEq

inductive SendAct where
  | quiet
  | checkChannel (clientID : Int)
  | tested (entry : Fin maxSessionNum)
  | starts (session : Option RtpSession)
  | finishes
deriving DecidableEq

/-- The entry a thread relies on between its test and the end of its call. -/
def SendPc.holds : SendPc → Option (Fin maxSessionNum)
  | .load _ entry => some entry
  | .send _ entry _ => some entry
  | .sending _ entry _ => some entry
  | _ => none

/-- The value of `pSession` a thread has read for its call. -/
def SendPc.carries : SendPc → Option (Option RtpSession)
  | .send _ _ session => some session
  | .sending _ _ session => some session
  | _ => none

/-- The call a thread is in. -/
def SendPc.calling : SendPc → Option (Option RtpSession)
  | .sending _ _ session => some session
  | _ => none

def sendStep (e : SessionElement) : SendPc → Server → Option (SendAct × SendPc × Server)
  | .visit i, s =>
      match index? maxClientNum i with
      | none => some (.quiet, .done, s)
      | some c =>
          if (s.clients c).clientID = -1 then some (.quiet, .visit (i + 1), s)
          else some (.quiet, .check c, s)
  | .check c, s =>
      -- the argument is read once more
      some (.checkChannel (s.clients c).clientID, .flag c (s.clients c).clientID, s)
  | .flag c clientID, s =>
      match checkChannel s clientID e.chId.toNat with
      | none => none
      | some false => some (.quiet, .visit (c + 1), s)
      | some true => some (.quiet, .route c, s)
  | .route c, s =>
      match index? maxGroupNum (e.chId.toNat / chsPerSession : Nat) with
      | none => none
      | some g => some (.quiet, .test c (s.ids c (mediumOf e.dataType) g), s)
  | .test c sessionID, s =>
      match checkedEntry sessionID with
      | none => none
      | some none => some (.quiet, .visit (c + 1), s)
      | some (some entry) =>
          match s.rtp.live entry with
          | none => some (.quiet, .visit (c + 1), s)
          | some _ => some (.tested entry, .load c entry, s)
  | .load c entry, s => some (.quiet, .send c entry (s.rtp.live entry), s)
  | .send c entry session, s => some (.starts session, .sending c entry session, s)
  | .sending c entry _, s => some (.finishes, .stamp c entry, s)
  | .stamp c entry, s => some (.quiet, .visit (c + 1), { s with rtp := s.rtp.advance entry })
  | .done, _ => none

/-! ## The deleter -/

/-- Where a thread stands in `del_client` and `remove_session_obj`; `i` is the
loop counter and the medium tells which of the two calls of a pass. -/
inductive DelPc where
  /-- the test of `clientID` -/
  | start
  /-- the loop condition, or between the two calls of a pass -/
  | pick (medium : Medium) (i : Nat)
  /-- the test of `pSession` -/
  | test (medium : Medium) (i : Nat) (entry : Fin maxSessionNum)
  /-- before `rtp_session_destroy` -/
  | destroy (medium : Medium) (i : Nat) (entry : Fin maxSessionNum)
  /-- before `pSession` is cleared -/
  | clear (medium : Medium) (i : Nat) (entry : Fin maxSessionNum)
  /-- before the time stamps are reset -/
  | reset (medium : Medium) (i : Nat) (entry : Fin maxSessionNum)
  /-- before `clientID` is cleared -/
  | unmark
  /-- before the two calls of `memset` -/
  | wipe
  | done (ret : Int)

inductive DelAct where
  | quiet
  | destroys (session : Option RtpSession)
  | clears (entry : Fin maxSessionNum)
  | unmarks
deriving DecidableEq

/-- The entry whose object is about to be destroyed. -/
def DelPc.target : DelPc → Option (Fin maxSessionNum)
  | .destroy _ _ entry => some entry
  | _ => none

/-- The entry whose object is destroyed and which is not cleared yet. -/
def DelPc.clearing : DelPc → Option (Fin maxSessionNum)
  | .clear _ _ entry => some entry
  | _ => none

/-- The next call of `remove_session_obj`. -/
def DelPc.next : Medium → Nat → DelPc
  | .video, i => .pick .audio i
  | .audio, i => .pick .video (i + 1)

def delStep (chs : Int) (c : Fin maxClientNum) : DelPc → Server → Option (DelAct × DelPc × Server)
  | .start, s =>
      if (s.clients c).clientID = -1 then some (.quiet, .done (-1), s)
      else some (.quiet, .pick .video 0, s)
  | .pick medium i, s =>
      if i < groups chs then
        match index? maxGroupNum i with
        | none => none
        | some g =>
            match checkedEntry (s.ids c medium g) with
            | none => none
            | some none => some (.quiet, DelPc.next medium i, s)
            | some (some entry) => some (.quiet, .test medium i entry, s)
      else some (.quiet, .unmark, s)
  | .test medium i entry, s =>
      match s.rtp.live entry with
      | none => some (.quiet, .reset medium i entry, s)
      | some _ => some (.quiet, .destroy medium i entry, s)
  | .destroy medium i entry, s => some (.destroys (s.rtp.live entry), .clear medium i entry, s)
  | .clear medium i entry, s =>
      some (.clears entry, .reset medium i entry, { s with rtp := s.rtp.clear entry })
  | .reset medium i entry, s =>
      some (.quiet, DelPc.next medium i, { s with rtp := s.rtp.resetStamps entry })
  | .unmark, s => some (.unmarks, .wipe, s.setClient c { s.clients c with clientID := -1 })
  | .wipe, s =>
      match index? maxClientNum (groups chs) with
      | none => none
      | some i => some (.quiet, .done 0, s.setClient i { s.clients i with sessionPair := .unset })
  | .done _, _ => none

/-! ## Both at once -/

structure Race where
  server : Server
  sender : SendPc
  deleter : DelPc

inductive Mover where
  | sender
  | deleter

inductive RaceAct where
  | sends (act : SendAct)
  | deletes (act : DelAct)

/-- One of the threads makes a step. -/
def raceExec (chs : Int) (e : SessionElement) (c : Fin maxClientNum) (r : Race) :
    Mover → Option (RaceAct × Race)
  | .sender =>
      match sendStep e r.sender r.server with
      | none => none
      | some (act, next, after) => some (.sends act, ⟨after, next, r.deleter⟩)
  | .deleter =>
      match delStep chs c r.deleter r.server with
      | none => none
      | some (act, next, after) => some (.deletes act, ⟨after, r.sender, next⟩)

/-! ## The property -/

/-- `rtp_session_destroy` has been called on this object; an object that was in
no entry of the table `s` counts as destroyed before. -/
def Destroyed (s : Server) (handle : Nat) (history : List (Mover × RaceAct)) : Prop :=
  (∀ i session, s.rtp.live i = some session → session.handle ≠ handle) ∨
    ∃ event ∈ history, ∃ session, event.2 = .deletes (.destroys (some session)) ∧
      session.handle = handle

/-- The call of oRTP that is under way. -/
def callUnderWay : List (Mover × RaceAct) → Option (Option RtpSession)
  | [] => none
  | (_, .sends (.starts session)) :: _ => some session
  | (_, .sends .finishes) :: _ => none
  | _ :: before => callUnderWay before

/-- A step does no harm: no call on a destroyed session or on none, no destruction
of a session in use, no `check_channel` of `-1`. -/
def Harmless (s : Server) (before : List (Mover × RaceAct)) : RaceAct → Prop
  | .sends (.checkChannel clientID) => clientID ≠ -1
  | .sends (.starts session) => ∃ live, session = some live ∧ ¬ Destroyed s live.handle before
  | .deletes (.destroys session) => ∀ live used, session = some live →
      callUnderWay before = some (some used) → used.handle ≠ live.handle
  | _ => True

def UsedSafely (s : Server) : List (Mover × RaceAct) → Prop
  | [] => True
  | event :: before => Harmless s before event.2 ∧ UsedSafely s before

/-- The deleter destroys no session the sender relies on and clears no `clientID`
the sender is about to read again, and the sender accepts no entry whose session
is destroyed. -/
def KeepsClear (c : Fin maxClientNum) (r : Race) : Mover × RaceAct → Prop
  | (_, .sends (.tested entry)) => r.deleter.clearing ≠ some entry
  | (_, .deletes (.destroys _)) => ∀ entry, r.deleter.target = some entry → r.sender.holds ≠ some entry
  | (_, .deletes .unmarks) => r.sender ≠ .check c
  | _ => True

instance (c : Fin maxClientNum) (r : Race) : DecidablePred (KeepsClear c r)
  | (_, .sends (.tested entry)) => inferInstanceAs (Decidable (r.deleter.clearing ≠ some entry))
  | (_, .deletes (.destroys _)) =>
      inferInstanceAs (Decidable (∀ entry, r.deleter.target = some entry → r.sender.holds ≠ some entry))
  | (_, .deletes .unmarks) => inferInstanceAs (Decidable (r.sender ≠ .check c))
  | (_, .sends .quiet) | (_, .sends (.checkChannel _)) | (_, .sends (.starts _))
  | (_, .sends .finishes) | (_, .deletes .quiet) | (_, .deletes (.clears _)) => .isTrue trivial

end DvsServer.Core.Session
