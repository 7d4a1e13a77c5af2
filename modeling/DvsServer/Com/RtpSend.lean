import DvsServer.Lib.SlotTable

/-!
# The RTP session table (`utils/com/src/rtpsend.c`)

A `RtpSession` object belongs to the oRTP library.  The model keeps what the
server tells oRTP about it and a handle that no other object ever had; oRTP
calls succeed and touch only the object they are given.  An access outside
`g_rtpSessionMgr` has no defined behaviour and is modelled by `none`.
-/

namespace DvsServer.Com.RtpSend

open DvsServer.Lib

abbrev maxSessionNum : Nat := 32

abbrev chsPerSession : Nat := 4

def payloadTypeVideo : Nat := 34

def payloadTypeAudio : Nat := 12

def videoTimeStampIncStd : UInt32 := 3600

def videoTimeStampInc : UInt32 := videoTimeStampIncStd / chsPerSession.toUInt32

def audioTimeStampIncStd : UInt32 := 320

def audioTimeStampInc : UInt32 := audioTimeStampIncStd / chsPerSession.toUInt32

def sessionTypeVideo : Nat := 0

def sessionTypeAudio : Nat := 1

/-- An oRTP session object in the state `create_rtp_session` gives it; `ssrc`
is `none` where oRTP keeps its own random value. -/
structure RtpSession where
  handle : Nat
  remoteAddr : String
  remotePort : Int
  ssrc : Option Int
  payloadType : Nat
deriving DecidableEq

/-- One entry of `g_rtpSessionMgr`. -/
structure SessionObj where
  pSession : Option RtpSession
  curTimeStamp : UInt32
  timeStampInc : UInt32

/-- The globals of `rtpsend.c`, with the number of objects oRTP has made. -/
structure SessionMgr where
  table : Fin maxSessionNum → SessionObj
  ssrc : Option Int
  nextHandle : Nat

/-- A call of `rtp_session_send_with_ts`. -/
structure OrtpSend where
  session : RtpSession
  buffer : Nat
  len : Int32
  timestamp : UInt32
deriving DecidableEq

/-- Write entry `i` of the table. -/
def SessionMgr.store (m : SessionMgr) (i : Fin maxSessionNum) (entry : SessionObj) : SessionMgr :=
  { m with table := Function.update m.table i entry }

def allocSessionID (m : SessionMgr) : Option (Fin maxSessionNum) :=
  firstFree (fun entry => entry.pSession.isNone) m.table

/-- `getenvSSRC` is the parsed environment variable, when it is set. -/
def rtpInit (getenvSSRC : Option Int) (m : SessionMgr) : SessionMgr :=
  { m with table := fun _ => ⟨none, 0, 0⟩, ssrc := getenvSSRC }

/-- `rtp_session_new` and the setters that follow it. -/
def newSession (m : SessionMgr) (ipStr : String) (port : Int) (payloadType : Nat) : RtpSession :=
  { handle := m.nextHandle, remoteAddr := ipStr, remotePort := port, ssrc := m.ssrc, payloadType }

/-- Store a new object in entry `i`; `curTimeStamp` keeps its value. -/
def SessionMgr.publish (m : SessionMgr) (i : Fin maxSessionNum) (session : RtpSession)
    (timeStampInc : UInt32) : SessionMgr :=
  { m.store i { m.table i with pSession := some session, timeStampInc } with
    nextHandle := m.nextHandle + 1 }

/-- The first half of `publish`: make the object, store `timeStampInc`. -/
def SessionMgr.prepare (m : SessionMgr) (i : Fin maxSessionNum) (timeStampInc : UInt32) :
    SessionMgr :=
  { m.store i { m.table i with timeStampInc } with nextHandle := m.nextHandle + 1 }

/-- The second half: store `pSession`. -/
def SessionMgr.place (m : SessionMgr) (i : Fin maxSessionNum) (session : RtpSession) : SessionMgr :=
  m.store i { m.table i with pSession := some session }

/-- `curTimeStamp += timeStampInc` -/
def SessionMgr.advance (m : SessionMgr) (i : Fin maxSessionNum) : SessionMgr :=
  m.store i { m.table i with curTimeStamp := (m.table i).curTimeStamp + (m.table i).timeStampInc }

/-- `pSession = NULL` -/
def SessionMgr.clear (m : SessionMgr) (i : Fin maxSessionNum) : SessionMgr :=
  m.store i { m.table i with pSession := none }

def SessionMgr.resetStamps (m : SessionMgr) (i : Fin maxSessionNum) : SessionMgr :=
  m.store i { m.table i with curTimeStamp := 0, timeStampInc := 0 }

/-- The result of `create_rtp_session`, with the object it made. -/
structure Creation where
  ret : Int
  session : Option RtpSession
  mgr : SessionMgr

def createRtpSession (m : SessionMgr) (ipStr : String) (port : Int) (sessionType : Nat) :
    Creation :=
  match allocSessionID m with
  | none => ⟨-1, none, m⟩
  | some newSessionID =>
      if sessionType = sessionTypeVideo then
        let session := newSession m ipStr port payloadTypeVideo
        ⟨newSessionID, some session, m.publish newSessionID session videoTimeStampInc⟩
      else if sessionType = sessionTypeAudio then
        let session := newSession m ipStr port payloadTypeAudio
        ⟨newSessionID, some session, m.publish newSessionID session audioTimeStampInc⟩
      else
        -- the object stays allocated in oRTP and is recorded nowhere
        ⟨-1, some (newSession m ipStr port 0), { m with nextHandle := m.nextHandle + 1 }⟩

/-- The range test lets `sessionID = MAX_SESSION_NUM` through to the table. -/
def checkedEntry (sessionID : Int) : Option (Option (Fin maxSessionNum)) :=
  if sessionID < 0 ∨ sessionID > maxSessionNum then some none
  else (index? maxSessionNum sessionID).map some

/-- The result of `rtp_send`, with the oRTP call it made. -/
structure Sending where
  ret : Int
  sent : Option OrtpSend
  mgr : SessionMgr

def rtpSend (m : SessionMgr) (sessionID : Int) (buffer : Nat) (len : Int32) : Option Sending :=
  match checkedEntry sessionID with
  | none => none
  | some none => some ⟨-1, none, m⟩
  | some (some i) =>
      let entry := m.table i
      match entry.pSession with
      | none => some ⟨-1, none, m⟩
      | some session =>
          some ⟨0, some ⟨session, buffer, len, entry.curTimeStamp⟩,
            m.store i { entry with curTimeStamp := entry.curTimeStamp + entry.timeStampInc }⟩

def removeSessionObj (m : SessionMgr) (sessionID : Int) : Option (Int × SessionMgr) :=
  match checkedEntry sessionID with
  | none => none
  | some none => some (-1, m)
  | some (some i) => some (0, m.store i ⟨none, 0, 0⟩)

/-! ## What one call does -/

/-- The session IDs the server can hold: `-1` or an index of the table. -/
def ValidID (sessionID : Int) : Prop := sessionID = -1 ∨ ∃ i : Fin maxSessionNum, sessionID = i

theorem checkedEntry_neg_one : checkedEntry (-1) = some none := rfl

@[simp] theorem checkedEntry_index (i : Fin maxSessionNum) :
    checkedEntry (i : Int) = some (some i) := by
  have below := i.isLt
  unfold checkedEntry
  rw [if_neg (by omega), index?_val]
  rfl

/-- The object a live entry holds. -/
def SessionMgr.live (m : SessionMgr) (i : Fin maxSessionNum) : Option RtpSession :=
  (m.table i).pSession

theorem allocSessionID_free {m : SessionMgr} {i : Fin maxSessionNum}
    (found : allocSessionID m = some i) : m.live i = none :=
  Option.isNone_iff_eq_none.mp (firstFree_eq_some.mp found).1

theorem allocSessionID_full {m : SessionMgr} (full : allocSessionID m = none)
    (i : Fin maxSessionNum) : m.live i ≠ none := by
  intro free
  have used := firstFree_eq_none.mp full i
  change (m.live i).isNone = false at used
  rw [Option.isNone_iff_eq_none.mpr free] at used
  cases used

@[simp] theorem store_live_self (m : SessionMgr) (i : Fin maxSessionNum) (entry : SessionObj) :
    (m.store i entry).live i = entry.pSession := by
  simp [SessionMgr.live, SessionMgr.store]

theorem store_live_ne {m : SessionMgr} {i j : Fin maxSessionNum} (other : j ≠ i)
    (entry : SessionObj) : (m.store i entry).live j = m.live j := by
  simp [SessionMgr.live, SessionMgr.store, Function.update_of_ne other]

@[simp] theorem publish_live_self (m : SessionMgr) (i : Fin maxSessionNum) (session : RtpSession)
    (inc : UInt32) : (m.publish i session inc).live i = some session :=
  store_live_self m i _

theorem publish_live_ne {m : SessionMgr} {i j : Fin maxSessionNum} (other : j ≠ i)
    (session : RtpSession) (inc : UInt32) : (m.publish i session inc).live j = m.live j :=
  store_live_ne other _

theorem place_prepare (m : SessionMgr) (i : Fin maxSessionNum) (session : RtpSession)
    (inc : UInt32) : (m.prepare i inc).place i session = m.publish i session inc := by
  simp [SessionMgr.prepare, SessionMgr.place, SessionMgr.publish, SessionMgr.store]

/-- Writing an entry that keeps its object changes no object. -/
theorem store_live_kept (m : SessionMgr) (i : Fin maxSessionNum) (entry : SessionObj)
    (kept : entry.pSession = m.live i) (j : Fin maxSessionNum) :
    (m.store i entry).live j = m.live j := by
  by_cases same : j = i
  · subst same
    rw [store_live_self, kept]
  · exact store_live_ne same _

@[simp] theorem advance_live (m : SessionMgr) (i j : Fin maxSessionNum) :
    (m.advance i).live j = m.live j := by
  rw [SessionMgr.advance]
  apply store_live_kept
  rfl

@[simp] theorem resetStamps_live (m : SessionMgr) (i j : Fin maxSessionNum) :
    (m.resetStamps i).live j = m.live j := by
  rw [SessionMgr.resetStamps]
  apply store_live_kept
  rfl

@[simp] theorem clear_live_self (m : SessionMgr) (i : Fin maxSessionNum) :
    (m.clear i).live i = none :=
  store_live_self m i _

theorem clear_live_ne {m : SessionMgr} {i j : Fin maxSessionNum} (other : j ≠ i) :
    (m.clear i).live j = m.live j :=
  store_live_ne other _

@[simp] theorem prepare_live (m : SessionMgr) (i j : Fin maxSessionNum) (inc : UInt32) :
    (m.prepare i inc).live j = m.live j :=
  store_live_kept m i { m.table i with timeStampInc := inc } rfl j

/-- What `create_rtp_session` does for a defined session type: it fails on a
full table, and else stores a new object in the first free entry. -/
inductive Creates (m : SessionMgr) (ipStr : String) (port : Int) (payloadType : Nat)
    (timeStampInc : UInt32) : Creation → Prop where
  | full (used : ∀ i, m.live i ≠ none) :
      Creates m ipStr port payloadType timeStampInc ⟨-1, none, m⟩
  | made (i : Fin maxSessionNum) (free : m.live i = none) (first : ∀ j < i, m.live j ≠ none) :
      Creates m ipStr port payloadType timeStampInc
        ⟨i, some (newSession m ipStr port payloadType),
          m.publish i (newSession m ipStr port payloadType) timeStampInc⟩

theorem allocSessionID_first {m : SessionMgr} {i j : Fin maxSessionNum}
    (found : allocSessionID m = some i) (before : j < i) : m.live j ≠ none := by
  intro free
  have used := (firstFree_eq_some.mp found).2 j before
  change (m.live j).isNone = false at used
  rw [Option.isNone_iff_eq_none.mpr free] at used
  cases used

theorem createRtpSession_video (m : SessionMgr) (ipStr : String) (port : Int) :
    Creates m ipStr port payloadTypeVideo videoTimeStampInc
      (createRtpSession m ipStr port sessionTypeVideo) := by
  unfold createRtpSession
  cases found : allocSessionID m with
  | none => exact .full (allocSessionID_full found)
  | some i => exact .made i (allocSessionID_free found) fun j => allocSessionID_first found

theorem createRtpSession_audio (m : SessionMgr) (ipStr : String) (port : Int) :
    Creates m ipStr port payloadTypeAudio audioTimeStampInc
      (createRtpSession m ipStr port sessionTypeAudio) := by
  unfold createRtpSession
  cases found : allocSessionID m with
  | none => exact .full (allocSessionID_full found)
  | some i => exact .made i (allocSessionID_free found) fun j => allocSessionID_first found

end DvsServer.Com.RtpSend
