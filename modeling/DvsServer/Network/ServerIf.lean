import DvsServer.Core.Session
import DvsServer.Lib.Run
import DvsServer.Network.Command

/-!
# The connection thread (`network/src/serverIf.c`)

`tcpServerThrFxn` serves one client.  One pass of its loop is a function of its
locals and of what the rest of the system answers during the pass; it yields
the calls made and the new locals.
-/

namespace DvsServer.Network.ServerIf

open DvsServer.Lib DvsServer.Core.Session DvsServer.Network.Command

inductive Errno where
  | eintr
  | ewouldblock
  | eagain
  | other
deriving DecidableEq

inductive Recv where
  | stored (data : List UInt8)
  | failed

def Recv.returnBytes : Recv → Int
  | .stored data => data.length
  | .failed => -1

/-- `sPack` after a `recv` that returned `SERVER_PACK_LEN`. -/
def Recv.pack : Recv → Option ServerPack
  | .stored data => if full : data.length = serverPackLen then some ⟨data, full⟩ else none
  | .failed => none

inductive AddResult where
  | slot (c : Fin maxClientNum)
  | noSlot
  | noVideo
  | noAudio
deriving DecidableEq

def AddResult.ret : AddResult → Int
  | .slot c => c
  | .noSlot => -1
  | .noVideo => -2
  | .noAudio => -3

theorem AddResult.ret_eq_iff {result : AddResult} {c : Fin maxClientNum} :
    result.ret = c ↔ result = .slot c := by
  constructor
  · intro ret_eq
    cases result with
    | slot d =>
        have same : (d.val : Int) = c := ret_eq
        rw [Fin.ext (by omega : d.val = c.val)]
    | noSlot => exact absurd ret_eq (by simp only [AddResult.ret]; omega)
    | noVideo => exact absurd ret_eq (by simp only [AddResult.ret]; omega)
    | noAudio => exact absurd ret_eq (by simp only [AddResult.ret]; omega)
  · rintro rfl
    rfl

/-- What the rest of the system answers during one pass of the loop. -/
structure Turn where
  quit : Bool
  recv : Recv
  /-- `errno` after `recv` returned -/
  errno : Errno
  /-- the result of `send` for an invalid header -/
  headerSent : Int
  added : AddResult
  /-- `gblGetResolution()` -/
  resolution : Int

/-- The calls of the thread that others can see; `dispatch` marks the `switch`. -/
inductive Call where
  | dispatch (serverCMD : UInt32) (parameters : List UInt8)
  /-- `gblSetExitState(DVS_EXIT_RESET_BOARD)` -/
  | setExitState
  | addClient (videoport audioport ret : Int)
  | delClient (clientId : Int)
  | openChannel (clientID : Int) (chId : UInt8)
  | closeChannel (clientID : Int) (chId : UInt8)
  | setResolution (resolution : Int)
  | send (pack : ReturnPack)
deriving DecidableEq

/-- The locals of the thread, and whether it has run its exit path. -/
structure TcpThread where
  clientID : Int
  clientQuit : Bool
  rPack : ReturnPack
  left : Bool

def videoResolutionCif : Int := 0

def videoResolutionD1 : Int := 1

namespace TcpThread

/-- `clientID` and the rest of `rPack` are not initialised. -/
def start (clientID : Int) (returnCMD : ReturnCMD) (resolution : UInt32) : TcpThread :=
  { clientID, clientQuit := false, rPack := ⟨tcpCmdHeaderStr, returnCMD, resolution⟩, left := false }

def setReturn (t : TcpThread) (returnCMD : ReturnCMD) : TcpThread :=
  { t with rPack := { t.rPack with returnCMD } }

def setResolution (t : TcpThread) (resolution : UInt32) : TcpThread :=
  { t with rPack := { t.rPack with resolution } }

def setClient (t : TcpThread) (clientID : Int) : TcpThread := { t with clientID }

def setQuit (t : TcpThread) : TcpThread := { t with clientQuit := true }

def leave (t : TcpThread) : TcpThread := { t with left := true }

end TcpThread

/-- The `switch` over the command, after `returnCMD` was set to success. -/
def runCommand (t : TcpThread) (turn : Turn) (sPack : ServerPack) : List Call × TcpThread :=
  match ServerCMD.ofCode sPack.serverCMD with
  | some .resetBoard => ([.setExitState], t)
  | some .addClient =>
      let t := t.setClient turn.added.ret
      ([.addClient sPack.videoport sPack.audioport turn.added.ret],
        if t.clientID = -1 then t.setReturn .fail else t)
  | some .delClient => ([], t.setQuit)
  | some .openChannel => ([.openChannel t.clientID sPack.chId], t)
  | some .closeChannel => ([.closeChannel t.clientID sPack.chId], t)
  | some .getResolution =>
      ([], t.setResolution
        (if turn.resolution = videoResolutionCif then dvsResolutionCif else dvsResolutionD1))
  | some .setResolution =>
      -- the comma operator drops its left operand, clientID
      ([.setResolution
          (if sPack.resolution = dvsResolutionCif then videoResolutionCif else videoResolutionD1),
        .setExitState], t.setQuit)
  | some .setBitrate => ([], t)
  | some .onAlarmout => ([], t)
  | some .offAlarmout => ([], t)
  | some .getAlarmout => ([], t)
  | some .getAlarmin => ([], t)
  | some .onAudio => ([], t)
  | some .offAudio => ([], t)
  | none => ([], t.setReturn .invlidCmd)

/-- From the `switch` to the end of the pass; a failed reply changes nothing. -/
def serve (t : TcpThread) (turn : Turn) (sPack : ServerPack) : List Call × TcpThread :=
  let (calls, t) := runCommand (t.setReturn .success) turn sPack
  (.dispatch sPack.serverCMD sPack.parameters :: calls ++ [.send t.rPack], t)

/-- `returnBytes < RETURN_PACK_LEN`, which compares as `size_t`: `-1` is not less. -/
def sentShort (returnBytes : Int) : Bool := 0 ≤ returnBytes && returnBytes < returnPackLen

/-- The code behind the loop. -/
def exitPath (t : TcpThread) : List Call × TcpThread :=
  (if t.clientID ≠ -1 then [.delClient t.clientID] else [], t.leave)

/-- One evaluation of the loop condition and the body or the exit path after it. -/
def tcpPass (t : TcpThread) (turn : Turn) : Option (List Call × TcpThread) :=
  if t.left then none
  else if turn.quit || t.clientQuit then some (exitPath t)
  else
    match turn.recv.pack with
    | none =>
        if turn.recv.returnBytes ≤ 0 ∧ turn.errno ≠ .eintr ∧ turn.errno ≠ .ewouldblock ∧
            turn.errno ≠ .eagain then some (exitPath t)
        else some ([], t)
    | some sPack =>
        if sPack.cmdHeader ≠ tcpCmdHeaderStr then
          let t := t.setReturn .invlidHeader
          if sentShort turn.headerSent then some ([.send t.rPack], t)
          else
            -- the invalid packet goes on to the switch
            let (calls, next) := serve t turn sPack
            some (.send t.rPack :: calls, next)
        else some (serve t turn sPack)

/-! ## What one pass does -/

/-- The packet that reaches the `switch` in a pass that receives. -/
def Turn.dispatched (turn : Turn) : Option ServerPack :=
  turn.recv.pack.bind fun sPack =>
    if sPack.cmdHeader ≠ tcpCmdHeaderStr ∧ sentShort turn.headerSent = true then none
    else some sPack

def Turn.command (turn : Turn) : Option ServerCMD :=
  turn.dispatched.bind fun sPack => ServerCMD.ofCode sPack.serverCMD

def Turn.hungUp (turn : Turn) : Prop :=
  turn.recv.pack = none ∧ turn.recv.returnBytes ≤ 0 ∧ turn.errno ≠ .eintr ∧
    turn.errno ≠ .ewouldblock ∧ turn.errno ≠ .eagain

/-- The result of the pass's `add_client`, when it makes that call. -/
def Turn.adds (turn : Turn) : Option AddResult :=
  if turn.command = some .addClient then some turn.added else none

def Turn.quits (turn : Turn) : Bool :=
  turn.command == some .delClient || turn.command == some .setResolution

def Call.slot : Call → Option Int
  | .delClient clientId => some clientId
  | .openChannel clientID _ => some clientID
  | .closeChannel clientID _ => some clientID
  | _ => none

def Call.added : Call → Option Int
  | .addClient _ _ ret => some ret
  | _ => none

def Replies (calls : List Call) : Prop := ∀ call ∈ calls, ∃ pack, call = .send pack

theorem Replies.nil : Replies [] := fun _ inNil => absurd inNil List.not_mem_nil

theorem Replies.one (pack : ReturnPack) : Replies [.send pack] :=
  fun _ member => ⟨pack, List.mem_singleton.mp member⟩

theorem Replies.slot {calls : List Call} (replies : Replies calls) {call : Call}
    (member : call ∈ calls) : call.slot = none := by
  obtain ⟨pack, rfl⟩ := replies call member
  rfl

theorem Replies.added {calls : List Call} (replies : Replies calls) {call : Call}
    (member : call ∈ calls) : call.added = none := by
  obtain ⟨pack, rfl⟩ := replies call member
  rfl

/-- A pass leaves the loop, or it only receives, or it serves a packet. -/
inductive Passes (t : TcpThread) (turn : Turn) : List Call → TcpThread → Prop where
  | exits (leaves : turn.quit = true ∨ t.clientQuit = true ∨ turn.hungUp) :
      Passes t turn (exitPath t).1 t.leave
  | idle {calls : List Call} {after : TcpThread} (stays : ¬ turn.hungUp)
      (quit : turn.quit = false) (clientQuit : t.clientQuit = false)
      (nothing : turn.dispatched = none)
      (replies : Replies calls)
      (clientID : after.clientID = t.clientID) (still : after.clientQuit = false)
      (left : after.left = false) : Passes t turn calls after
  | serves (before : TcpThread) (header : List Call) (sPack : ServerPack) (stays : ¬ turn.hungUp)
      (quit : turn.quit = false) (clientQuit : t.clientQuit = false)
      (dispatched : turn.dispatched = some sPack)
      (replies : Replies header)
      (clientID : before.clientID = t.clientID) (still : before.clientQuit = false)
      (left : before.left = false) :
      Passes t turn (header ++ (serve before turn sPack).1) (serve before turn sPack).2

theorem tcpPass_cases {t after : TcpThread} {turn : Turn} {calls : List Call}
    (done : tcpPass t turn = some (calls, after)) : t.left = false ∧ Passes t turn calls after := by
  unfold tcpPass at done
  split at done
  · cases done
  rename_i running
  have left : t.left = false := by simpa using running
  refine ⟨left, ?_⟩
  split at done
  · rename_i ends
    cases Option.some.inj done
    refine .exits ?_
    rcases Bool.or_eq_true _ _ ▸ ends with quit | quit
    · exact .inl quit
    · exact .inr (.inl quit)
  rename_i goesOn
  have quit : turn.quit = false := by
    cases quit : turn.quit <;> simp [quit] at goesOn ⊢
  have clientQuit : t.clientQuit = false := by
    cases clientQuit : t.clientQuit <;> simp [clientQuit] at goesOn ⊢
  split at done
  · rename_i noPack
    have nothing : turn.dispatched = none := by
      rw [Turn.dispatched, noPack]
      rfl
    split at done
    · rename_i broken
      cases Option.some.inj done
      exact .exits (.inr (.inr ⟨noPack, broken⟩))
    · rename_i stays
      cases Option.some.inj done
      exact .idle (fun hungUp => stays hungUp.2) quit clientQuit nothing .nil rfl clientQuit left
  · rename_i sPack found
    have stays : ¬ turn.hungUp := fun hungUp => by
      have nothing := hungUp.1
      rw [found] at nothing
      cases nothing
    split at done
    · rename_i invalid
      dsimp only at done
      split at done
      · rename_i short
        cases Option.some.inj done
        refine .idle stays quit clientQuit ?_ (.one _) rfl clientQuit left
        rw [Turn.dispatched, found, Option.bind_some, if_pos ⟨invalid, short⟩]
      · rename_i long
        cases Option.some.inj done
        refine .serves (t.setReturn .invlidHeader) [.send (t.setReturn .invlidHeader).rPack] sPack
          stays quit clientQuit ?_ (.one _) rfl clientQuit left
        rw [Turn.dispatched, found, Option.bind_some, if_neg fun both => long both.2]
    · rename_i valid
      cases Option.some.inj done
      refine .serves t [] sPack stays quit clientQuit ?_ .nil rfl clientQuit left
      rw [Turn.dispatched, found, Option.bind_some, if_neg fun both => valid both.1]

theorem tcpPass_defined {t : TcpThread} (running : t.left = false) (turn : Turn) :
    ∃ calls after, tcpPass t turn = some (calls, after) := by
  unfold tcpPass
  rw [running, if_neg Bool.false_ne_true]
  split
  · exact ⟨_, _, rfl⟩
  · split
    · split
      · exact ⟨_, _, rfl⟩
      · exact ⟨_, _, rfl⟩
    · split
      · dsimp only
        split
        · exact ⟨_, _, rfl⟩
        · exact ⟨_, _, rfl⟩
      · exact ⟨_, _, rfl⟩

/-! ## What serving a packet does -/

def commandOf (sPack : ServerPack) : Option ServerCMD := ServerCMD.ofCode sPack.serverCMD

theorem serve_clientID (t : TcpThread) (turn : Turn) (sPack : ServerPack) :
    (serve t turn sPack).2.clientID =
      if commandOf sPack = some .addClient then turn.added.ret else t.clientID := by
  unfold serve runCommand commandOf
  cases ServerCMD.ofCode sPack.serverCMD with
  | none => rfl
  | some command =>
      cases command with
      | addClient =>
          dsimp only
          split <;> rfl
      | _ => rfl

theorem serve_clientQuit (t : TcpThread) (turn : Turn) (sPack : ServerPack) :
    (serve t turn sPack).2.clientQuit =
      (t.clientQuit || (commandOf sPack == some .delClient || commandOf sPack == some .setResolution)) := by
  unfold serve runCommand commandOf
  cases ServerCMD.ofCode sPack.serverCMD with
  | none => exact (Bool.or_false _).symm
  | some command =>
      cases command with
      | addClient =>
          dsimp only
          split <;> exact (Bool.or_false _).symm
      | delClient => exact (Bool.or_true _).symm
      | setResolution => exact (Bool.or_true _).symm
      | _ => exact (Bool.or_false _).symm

theorem serve_left (t : TcpThread) (turn : Turn) (sPack : ServerPack) :
    (serve t turn sPack).2.left = t.left := by
  unfold serve runCommand
  cases ServerCMD.ofCode sPack.serverCMD with
  | none => rfl
  | some command =>
      cases command with
      | addClient =>
          dsimp only
          split <;> rfl
      | _ => rfl

/-- Only an open or a close acts on a slot, and it acts on `clientID`. -/
theorem serve_slot {t : TcpThread} {turn : Turn} {sPack : ServerPack} {c : Int} :
    (∃ call ∈ (serve t turn sPack).1, call.slot = some c) ↔
      c = t.clientID ∧
        (commandOf sPack = some .openChannel ∨ commandOf sPack = some .closeChannel) := by
  unfold serve runCommand commandOf
  cases ServerCMD.ofCode sPack.serverCMD with
  | none => simp [Call.slot]
  | some command =>
      cases command <;> simp [Call.slot, TcpThread.setReturn, eq_comm]

theorem serve_added {t : TcpThread} {turn : Turn} {sPack : ServerPack} {ret : Int} :
    (∃ call ∈ (serve t turn sPack).1, call.added = some ret) ↔
      ret = turn.added.ret ∧ commandOf sPack = some .addClient := by
  unfold serve runCommand commandOf
  cases ServerCMD.ofCode sPack.serverCMD with
  | none => simp [Call.added]
  | some command =>
      cases command <;> simp [Call.added, eq_comm]

theorem serve_not_delClient {t : TcpThread} {turn : Turn} {sPack : ServerPack} {clientId : Int} :
    Call.delClient clientId ∉ (serve t turn sPack).1 := by
  unfold serve runCommand
  cases ServerCMD.ofCode sPack.serverCMD with
  | none => simp
  | some command => cases command <;> simp

theorem Turn.command_eq {turn : Turn} {sPack : ServerPack}
    (dispatched : turn.dispatched = some sPack) : turn.command = commandOf sPack := by
  rw [Turn.command, dispatched]
  rfl

theorem Turn.command_none {turn : Turn} (nothing : turn.dispatched = none) :
    turn.command = none := by
  rw [Turn.command, nothing]
  rfl

end DvsServer.Network.ServerIf
