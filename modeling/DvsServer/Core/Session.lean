import DvsServer.Com.RtpSend

/-!
# The client table (`core/src/session.c`)

Every operation is given the server's tables and returns its result with the
new tables, or `none` where it would access memory outside an array.  `chs` is
`gbl.videoChannels`, which `main` sets once before any other thread runs.
-/

namespace DvsServer.Core.Session

open DvsServer.Lib DvsServer.Com.RtpSend

abbrev maxVideoChannel : Nat := 32

abbrev maxClientNum : Nat := 10

/-- The length of the arrays with one entry per group of channels. -/
abbrev maxGroupNum : Nat := maxVideoChannel / chsPerSession

instance : NeZero maxGroupNum := ⟨by decide⟩

/-- `chs / CHS_PER_SESSION`, as the bound of a loop that counts up from zero. -/
def groups (chs : Int) : Nat := (chs.tdiv chsPerSession).toNat

inductive Medium where
  | video
  | audio
deriving DecidableEq

instance {p : Medium → Prop} [DecidablePred p] : Decidable (∀ m, p m) :=
  decidable_of_iff (p .video ∧ p .audio)
    ⟨fun both m => by cases m <;> simp only [both], fun all => ⟨all .video, all .audio⟩⟩

instance {p : Medium → Prop} [DecidablePred p] : Decidable (∃ m, p m) :=
  decidable_of_iff (p .video ∨ p .audio)
    ⟨fun either => either.elim (⟨_, ·⟩) (⟨_, ·⟩), fun ⟨m, holds⟩ => by
      cases m
      · exact .inl holds
      · exact .inr holds⟩

def Medium.sessionType : Medium → Nat
  | .video => sessionTypeVideo
  | .audio => sessionTypeAudio

def Medium.payloadType : Medium → Nat
  | .video => payloadTypeVideo
  | .audio => payloadTypeAudio

def Medium.timeStampInc : Medium → UInt32
  | .video => videoTimeStampInc
  | .audio => audioTimeStampInc

/-- The port of the `i`-th session: video ports count down, audio ports up. -/
def Medium.port : Medium → Int → Nat → Int
  | .video, base, i => base - i * 2
  | .audio, base, i => base + i * 2

structure SessionPair where
  videoIDs : Fin maxGroupNum → Int
  audioIDs : Fin maxGroupNum → Int

def SessionPair.ids (pair : SessionPair) : Medium → Fin maxGroupNum → Int
  | .video => pair.videoIDs
  | .audio => pair.audioIDs

def SessionPair.setID (pair : SessionPair) (i : Fin maxGroupNum) (id : Int) :
    Medium → SessionPair
  | .video => { pair with videoIDs := Function.update pair.videoIDs i id }
  | .audio => { pair with audioIDs := Function.update pair.audioIDs i id }

/-- Both arrays after `memset(.., -1, ..)`. -/
def SessionPair.unset : SessionPair := ⟨fun _ => -1, fun _ => -1⟩

/-- `BOOL` flags hold `TRUE` or `FALSE` only. -/
structure ClientObj where
  clientID : Int
  flag : Fin maxVideoChannel → Bool
  sessionPair : SessionPair

/-- `g_clients` with the globals of `rtpsend.c`. -/
structure Server where
  clients : Fin maxClientNum → ClientObj
  rtp : SessionMgr

def Server.setClient (s : Server) (c : Fin maxClientNum) (client : ClientObj) : Server :=
  { s with clients := Function.update s.clients c client }

def cmdSessionBuffer : Int := 0

def cmdSessionFlush : Int := -1

structure SessionElement where
  command : Int
  chId : UInt8
  dataType : UInt8
  buffer : Nat
  len : UInt32
deriving DecidableEq

/-! ## Channel flags -/

/-- `open_channel` and `close_channel` differ in the value they store only. -/
def setChannel (value : Bool) (s : Server) (clientID chId : Int) : Option (Int × Server) :=
  match index? maxClientNum clientID with
  | none => none
  | some c =>
      let client := s.clients c
      if client.clientID = -1 then some (-1, s)
      else if chId ≥ maxVideoChannel then
        some (-1, s.setClient c { client with flag := fun _ => value })
      else
        match index? maxVideoChannel chId with
        | none => none
        | some ch => some (-1, s.setClient c { client with flag := Function.update client.flag ch value })

def openChannel : Server → Int → Int → Option (Int × Server) := setChannel true

def closeChannel : Server → Int → Int → Option (Int × Server) := setChannel false

/-- Whether the returned `BOOL` differs from `FALSE`; an inactive slot gives
`(BOOL)-1`, which does. -/
def checkChannel (s : Server) (clientID chId : Int) : Option Bool :=
  match index? maxClientNum clientID with
  | none => none
  | some c =>
      let client := s.clients c
      if client.clientID = -1 then some true
      else (index? maxVideoChannel chId).map client.flag

/-! ## Registration -/

/-- The result of `add_client`, with the RTP sessions it created. -/
structure Adding where
  ret : Int
  created : List RtpSession
  server : Server

/-- `client->sessionPair.videoIDs[i] = create_rtp_session(..)`, or `audioIDs`. -/
def recordCreation (medium : Medium) (id : Fin maxClientNum) (g : Fin maxGroupNum)
    (creation : Creation) (s : Server) : Server :=
  let client := s.clients id
  let pair := client.sessionPair.setID g creation.ret medium
  { s with rtp := creation.mgr }.setClient id { client with sessionPair := pair }

/-- One loop of `add_client`, from group `i` with `k` groups left; the result
tells whether every session was created. -/
def createLoop (medium : Medium) (destIp : String) (base : Int) (id : Fin maxClientNum) :
    Nat → Nat → Server → Option (Bool × List RtpSession × Server)
  | 0, _, s => some (true, [], s)
  | k + 1, i, s =>
      let creation := createRtpSession s.rtp destIp (medium.port base i) medium.sessionType
      match index? maxGroupNum i with
      | none => none
      | some g =>
          let next := recordCreation medium id g creation s
          if creation.ret < 0 then some (false, creation.session.toList, next)
          else
            match createLoop medium destIp base id k (i + 1) next with
            | none => none
            | some (ok, created, last) => some (ok, creation.session.toList ++ created, last)

/-- The loop under its test `base_port > 0`. -/
def createSessions (medium : Medium) (chs : Int) (destIp : String) (base : Int)
    (id : Fin maxClientNum) (s : Server) : Option (Bool × List RtpSession × Server) :=
  if base > 0 then createLoop medium destIp base id (groups chs) 0 s else some (true, [], s)

def addClient (chs : Int) (s : Server) (destIp : String) (baseVideoPort baseAudioPort : Int) :
    Option Adding :=
  match firstFree (fun client => client.clientID == -1) s.clients with
  | none => some ⟨-1, [], s⟩
  | some id =>
      match createSessions .video chs destIp baseVideoPort id s with
      | none => none
      | some (false, video, s) => some ⟨-2, video, s⟩
      | some (true, video, s) =>
          match createSessions .audio chs destIp baseAudioPort id s with
          | none => none
          | some (false, audio, s) => some ⟨-3, video ++ audio, s⟩
          | some (true, audio, s) =>
              let client := { s.clients id with clientID := id, flag := fun _ => false }
              some ⟨id, video ++ audio, s.setClient id client⟩

/-! ## Deletion -/

/-- The loop of `del_client`, from group `i` with `k` groups left. -/
def removeLoop (pair : SessionPair) : Nat → Nat → SessionMgr → Option SessionMgr
  | 0, _, m => some m
  | k + 1, i, m =>
      match index? maxGroupNum i with
      | none => none
      | some g =>
          match removeSessionObj m (pair.videoIDs g) with
          | none => none
          | some (_, m) =>
              match removeSessionObj m (pair.audioIDs g) with
              | none => none
              | some (_, m) => removeLoop pair k (i + 1) m

def delClient (chs : Int) (s : Server) (clientId : Int) : Option (Int × Server) :=
  match index? maxClientNum clientId with
  | none => none
  | some c =>
      let client := s.clients c
      if client.clientID = -1 then some (-1, s)
      else
        match removeLoop client.sessionPair (groups chs) 0 s.rtp with
        | none => none
        | some m =>
            let s := { s with rtp := m }.setClient c { client with clientID := -1 }
            -- the two memsets index g_clients.clients with the loop counter
            match index? maxClientNum (groups chs) with
            | none => none
            | some i => some (0, s.setClient i { s.clients i with sessionPair := .unset })

/-- The FIFOs opened by `init_session_tsk`; `pipeOk` tells which `pipe` calls succeed. -/
def openFifos (pipeOk : Nat → Bool) : Nat → Nat → Option Bool
  | 0, _ => some true
  | k + 1, i =>
      match index? maxGroupNum i with
      | none => none
      | some _ => if pipeOk i then openFifos pipeOk k (i + 1) else some false

def initSessionTsk (chs : Int) (pipeOk : Nat → Bool) (s : Server) : Option (Int × Server) :=
  let reset := fun c => { s.clients c with clientID := -1, sessionPair := .unset }
  match openFifos pipeOk (groups chs) 0 with
  | none => none
  | some opened =>
      -- the last FIFO is g_NetBackSessionFifo
      some (if opened && pipeOk (groups chs) then 0 else -1, { s with clients := reset })

/-! ## Frame routing -/

/-- One `rtp_send` made by `send_to_client`, and the oRTP call it led to. -/
structure ClientSend where
  client : Fin maxClientNum
  sessionID : Int
  buffer : Nat
  len : Int32
  sent : Option OrtpSend

/-- Which ID array `send_to_client` reads. -/
def mediumOf (dataType : UInt8) : Medium :=
  if dataType.toNat = sessionTypeVideo then .video else .audio

/-- The loop of `send_to_client` over the client slots still to visit. -/
def sendLoop (e : SessionElement) :
    List (Fin maxClientNum) → Server → Option (List ClientSend × Server)
  | [], s => some ([], s)
  | i :: rest, s =>
      let client := s.clients i
      if client.clientID = -1 then sendLoop e rest s
      else
        match checkChannel s client.clientID e.chId.toNat with
        | none => none
        | some false => sendLoop e rest s
        | some true =>
            match index? maxGroupNum (e.chId.toNat / chsPerSession : Nat) with
            | none => none
            | some g =>
                let sessionID := client.sessionPair.ids (mediumOf e.dataType) g
                match rtpSend s.rtp sessionID e.buffer e.len.toInt32 with
                | none => none
                | some sending =>
                    match sendLoop e rest { s with rtp := sending.mgr } with
                    | none => none
                    | some (sends, last) =>
                        some (⟨i, sessionID, e.buffer, e.len.toInt32, sending.sent⟩ :: sends, last)

def sendToClient (s : Server) (e : SessionElement) : Option (List ClientSend × Server) :=
  sendLoop e (List.finRange maxClientNum) s

end DvsServer.Core.Session
