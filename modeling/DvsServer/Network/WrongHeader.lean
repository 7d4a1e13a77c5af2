import DvsServer.Network.Connection

/-!
# Packets with a wrong header

`tcpServerThrFxn` answers a packet with a wrong header and then goes on to the
`switch`, unless `send` has returned a count below `RETURN_PACK_LEN`.  The test
compares a `size_t`, so neither a full reply nor `-1` keeps the packet from being
carried out and answered once more.
-/

namespace DvsServer.Network.ServerIf

open DvsServer.Lib DvsServer.Core.Session DvsServer.Network.Command

inductive ExitState where
  | working
  | exitSuccess
  | exitFail
  | exitResetBoard
deriving DecidableEq

/-- `gbl.resolution` and `g_exitState`. -/
structure Globals where
  resolution : Int
  exitState : ExitState
deriving DecidableEq

/-- What a call stores in the globals. -/
def Call.store (globals : Globals) : Call → Globals
  | .setExitState => { globals with exitState := .exitResetBoard }
  | .setResolution resolution => { globals with resolution }
  | _ => globals

structure Site where
  thread : TcpThread
  server : Server
  globals : Globals

def received (t : TcpThread) (turn : Turn) : Option ServerPack :=
  if turn.quit || t.clientQuit then none else turn.recv.pack

structure PassOutcome where
  packet : Option ServerPack
  calls : List Call

def sitePass (chs : Int) (destIp : String) (site : Site) (turn : Turn) : Option (PassOutcome × Site) :=
  (tcpPass site.thread turn).bind fun (calls, thread) =>
    (perform chs destIp calls site.server).map fun server =>
      (⟨received site.thread turn, calls⟩, ⟨thread, server, calls.foldl Call.store site.globals⟩)

/-! ## The property -/

def Call.reply : Call → Option ReturnPack
  | .send pack => some pack
  | _ => none

def replies (calls : List Call) : List ReturnPack := calls.filterMap Call.reply

/-- Nothing a command could change has changed. -/
structure NoEffect (before after : Site) : Prop where
  server : after.server = before.server
  globals : after.globals = before.globals
  clientID : after.thread.clientID = before.thread.clientID
  clientQuit : after.thread.clientQuit = before.thread.clientQuit

def RejectedOnce (calls : List Call) : Prop :=
  ∃ pack, replies calls = [pack] ∧ pack.returnCMD = .invlidHeader

def packetsReceived (history : List (Turn × PassOutcome)) : Nat :=
  (history.filterMap fun event => event.2.packet).length

def repliesSent (history : List (Turn × PassOutcome)) : Nat :=
  (history.flatMap fun event => replies event.2.calls).length

def RejectsShort (event : Turn × PassOutcome) : Prop :=
  ∀ sPack, event.2.packet = some sPack → sPack.cmdHeader ≠ tcpCmdHeaderStr →
    sentShort event.1.headerSent = true

/-! ## The replies of one pass -/

theorem replies_append (calls more : List Call) :
    replies (calls ++ more) = replies calls ++ replies more :=
  List.filterMap_append

theorem runCommand_replies (t : TcpThread) (turn : Turn) (sPack : ServerPack) :
    replies (runCommand t turn sPack).1 = [] := by
  unfold runCommand
  cases ServerCMD.ofCode sPack.serverCMD with
  | none => rfl
  | some command => cases command <;> rfl

theorem serve_replies (t : TcpThread) (turn : Turn) (sPack : ServerPack) :
    replies (serve t turn sPack).1 = [(serve t turn sPack).2.rPack] := by
  have silent := runCommand_replies (t.setReturn .success) turn sPack
  rw [serve]
  change replies ([.dispatch sPack.serverCMD sPack.parameters] ++
    (runCommand (t.setReturn .success) turn sPack).1 ++ [.send _]) = _
  rw [replies_append, replies_append, silent]
  rfl

theorem carriedOut_replies (t : TcpThread) (turn : Turn) (sPack : ServerPack) :
    (replies (.send t.rPack :: (serve t turn sPack).1)).length = 2 :=
  congrArg (fun served => served.length + 1) (serve_replies t turn sPack)

theorem exitPath_replies (t : TcpThread) : replies (exitPath t).1 = [] := by
  unfold exitPath
  split
  · rfl
  · rfl

/-- What a pass does with what it received. -/
inductive Treats (t : TcpThread) (turn : Turn) : Option ServerPack → List Call → TcpThread → Prop where
  | nothing {calls : List Call} {after : TcpThread} (silent : replies calls = []) :
      Treats t turn none calls after
  | rejected (sPack : ServerPack) (wrong : sPack.cmdHeader ≠ tcpCmdHeaderStr)
      (short : sentShort turn.headerSent = true) :
      Treats t turn (some sPack) [.send (t.setReturn .invlidHeader).rPack] (t.setReturn .invlidHeader)
  | carriedOut (sPack : ServerPack) (wrong : sPack.cmdHeader ≠ tcpCmdHeaderStr)
      (long : sentShort turn.headerSent = false) :
      Treats t turn (some sPack)
        (.send (t.setReturn .invlidHeader).rPack :: (serve (t.setReturn .invlidHeader) turn sPack).1)
        (serve (t.setReturn .invlidHeader) turn sPack).2
  | served (sPack : ServerPack) (valid : sPack.cmdHeader = tcpCmdHeaderStr) :
      Treats t turn (some sPack) (serve t turn sPack).1 (serve t turn sPack).2

theorem tcpPass_treats {t after : TcpThread} {turn : Turn} {calls : List Call}
    (done : tcpPass t turn = some (calls, after)) : Treats t turn (received t turn) calls after := by
  unfold tcpPass at done
  split at done
  · cases done
  split at done
  · rename_i ends
    cases Option.some.inj done
    rw [received, if_pos ends]
    exact .nothing (exitPath_replies t)
  · rename_i goesOn
    rw [received, if_neg goesOn]
    split at done
    · rename_i noPack
      rw [noPack]
      split at done
      · cases Option.some.inj done
        exact .nothing (exitPath_replies t)
      · cases Option.some.inj done
        exact .nothing rfl
    · rename_i sPack found
      rw [found]
      split at done
      · rename_i wrong
        dsimp only at done
        split at done
        · rename_i short
          cases Option.some.inj done
          exact .rejected sPack wrong short
        · rename_i long
          cases Option.some.inj done
          exact .carriedOut sPack wrong (Bool.eq_false_iff.mpr long)
      · rename_i valid
        cases Option.some.inj done
        exact .served sPack (not_not.mp valid)

theorem sitePass_cases {chs : Int} {destIp : String} {site next : Site} {turn : Turn}
    {outcome : PassOutcome} (done : sitePass chs destIp site turn = some (outcome, next)) :
    Treats site.thread turn outcome.packet outcome.calls next.thread := by
  obtain ⟨⟨calls, thread⟩, passed, rest⟩ := Option.bind_eq_some_iff.mp done
  obtain ⟨server, _, same⟩ := Option.map_eq_some_iff.mp rest
  cases same
  exact tcpPass_treats passed

/-- A pass that receives a wrong header has no effect and sends one reply exactly when
its reply was cut short. -/
theorem pass_rejects_iff (chs : Int) (destIp : String) {site : Site} {turn : Turn}
    {sPack : ServerPack} (running : site.thread.left = false)
    (got : received site.thread turn = some sPack) (wrong : sPack.cmdHeader ≠ tcpCmdHeaderStr) :
    (∃ outcome next, sitePass chs destIp site turn = some (outcome, next) ∧ NoEffect site next ∧
      RejectedOnce outcome.calls) ↔ sentShort turn.headerSent = true := by
  constructor
  · rintro ⟨outcome, next, done, _, pack, once, _⟩
    obtain ⟨⟨calls, thread⟩, passed, rest⟩ := Option.bind_eq_some_iff.mp done
    obtain ⟨server, _, same⟩ := Option.map_eq_some_iff.mp rest
    cases same
    have treats := tcpPass_treats passed
    rw [got] at treats
    cases treats with
    | rejected _ _ short => exact short
    | carriedOut _ _ long =>
        have twice := carriedOut_replies (site.thread.setReturn .invlidHeader) turn sPack
        have one : 2 = [pack].length := twice.symm.trans (congrArg List.length once)
        cases one
    | served _ valid => exact absurd valid wrong
  · intro short
    obtain ⟨calls, after, passed⟩ := tcpPass_defined running turn
    have treats := tcpPass_treats passed
    rw [got] at treats
    cases treats with
    | rejected _ _ _ =>
        refine ⟨⟨some sPack, [.send (site.thread.setReturn .invlidHeader).rPack]⟩,
          ⟨site.thread.setReturn .invlidHeader, site.server, site.globals⟩, ?_,
          ⟨rfl, rfl, rfl, rfl⟩, _, rfl, rfl⟩
        rw [sitePass, passed, got]
        rfl
    | carriedOut _ _ long =>
        rw [short] at long
        cases long
    | served _ valid => exact absurd valid wrong

/-! ## Counting replies -/

theorem Treats.balance {t after : TcpThread} {turn : Turn} {packet : Option ServerPack}
    {calls : List Call} (treats : Treats t turn packet calls after) :
    packet.toList.length ≤ (replies calls).length ∧
      ((replies calls).length = packet.toList.length ↔ RejectsShort (turn, ⟨packet, calls⟩)) := by
  cases treats with
  | nothing silent =>
      rw [silent]
      refine ⟨Nat.le_refl _, fun _ sPack none_ => ?_, fun _ => rfl⟩
      cases none_
  | rejected sPack wrong short =>
      refine ⟨Nat.le_refl _, fun _ _ _ _ => short, fun _ => rfl⟩
  | carriedOut sPack wrong long =>
      rw [carriedOut_replies]
      refine ⟨by simp, fun same => ?_, fun short => ?_⟩
      · simp at same
      · have cut : sentShort turn.headerSent = true := short sPack rfl wrong
        rw [cut] at long
        cases long
  | served sPack valid =>
      rw [serve_replies]
      refine ⟨Nat.le_refl _, fun _ got found wrong => ?_, fun _ => rfl⟩
      cases Option.some.inj found
      exact absurd valid wrong

theorem packetsReceived_cons (event : Turn × PassOutcome) (before : List (Turn × PassOutcome)) :
    packetsReceived (event :: before) = event.2.packet.toList.length + packetsReceived before := by
  unfold packetsReceived
  cases found : event.2.packet with
  | none => simp [found]
  | some sPack =>
      simp [found]
      omega

theorem repliesSent_cons (event : Turn × PassOutcome) (before : List (Turn × PassOutcome)) :
    repliesSent (event :: before) = (replies event.2.calls).length + repliesSent before := by
  simp [repliesSent]

/-- In a run a packet never goes without a reply, and the numbers agree exactly when
every answer to a wrong header was cut short. -/
theorem run_balance {chs : Int} {destIp : String} {start site : Site}
    {history : List (Turn × PassOutcome)}
    (run : Run (ExecStep (sitePass chs destIp)) start history site) :
    packetsReceived history ≤ repliesSent history ∧
      (repliesSent history = packetsReceived history ↔ ∀ event ∈ history, RejectsShort event) := by
  induction run with
  | nil => exact ⟨Nat.le_refl _, fun _ _ inNil => absurd inNil List.not_mem_nil, fun _ => rfl⟩
  | @snoc before site next event earlier taken ih =>
      obtain ⟨turn, outcome⟩ := event
      have treats : Treats site.thread turn outcome.packet outcome.calls next.thread :=
        sitePass_cases taken
      obtain ⟨atLeast, balanced⟩ := treats.balance
      obtain ⟨atLeast', balanced'⟩ := ih
      rw [packetsReceived_cons, repliesSent_cons, List.forall_mem_cons, ← balanced']
      have here : RejectsShort (turn, outcome) ↔
          (replies outcome.calls).length = outcome.packet.toList.length := balanced.symm
      rw [here]
      dsimp only
      omega

/-- A packet with a wrong header has no effect and gets one reply, and a connection sends
as many replies as it receives packets, exactly where `send` accepts the answer in part. -/
theorem wrong_headers_rejected_iff (chs : Int) (destIp : String) :
    (∀ site turn sPack, site.thread.left = false → received site.thread turn = some sPack →
      sPack.cmdHeader ≠ tcpCmdHeaderStr →
        ((∃ outcome next, sitePass chs destIp site turn = some (outcome, next) ∧
          NoEffect site next ∧ RejectedOnce outcome.calls) ↔ sentShort turn.headerSent = true)) ∧
      ∀ start site history, Run (ExecStep (sitePass chs destIp)) start history site →
        (repliesSent history = packetsReceived history ↔ ∀ event ∈ history, RejectsShort event) :=
  ⟨fun _ _ _ running got wrong => pass_rejects_iff chs destIp running got wrong,
    fun _ _ _ run => (run_balance run).2⟩

/-- A turn that receives a packet whose header is zero and whose command resets the board. -/
def misheaded (headerSent : Int) : Turn :=
  { quit := false, recv := .stored (List.replicate serverPackLen 0), errno := .other, headerSent
    added := .noSlot, resolution := videoResolutionCif }

def zeroPack : ServerPack := ⟨List.replicate serverPackLen 0, List.length_replicate⟩

def accepted : Site := ⟨.start (-1) .success 0, Server.zero, ⟨videoResolutionCif, .working⟩⟩

/-- The answer is sent in part. -/
theorem wrong_headers_rejected_iff_short :
    ((∃ outcome next, sitePass 4 "10.0.0.1" accepted (misheaded 5) = some (outcome, next) ∧
      NoEffect accepted next ∧ RejectedOnce outcome.calls) ↔ sentShort 5 = true) ∧
      ∃ result, execAll (sitePass 4 "10.0.0.1") [misheaded 5] ([], accepted) = some result ∧
        (repliesSent result.1 = packetsReceived result.1 ↔ ∀ event ∈ result.1, RejectsShort event) := by
  obtain ⟨result, executed⟩ := Option.isSome_iff_exists.mp
    (show (execAll (sitePass 4 "10.0.0.1") [misheaded 5] ([], accepted)).isSome = true by decide)
  have claim := wrong_headers_rejected_iff 4 "10.0.0.1"
  constructor
  · exact claim.1 accepted (misheaded 5) zeroPack rfl rfl (by decide)
  · exact ⟨result, executed, claim.2 accepted result.2 result.1 (execAll_run .nil executed)⟩

/-- The answer is sent whole, and the board is reset. -/
theorem wrong_headers_rejected_fails : ¬ ∀ (chs : Int) (destIp : String) (site : Site) (turn : Turn)
    (sPack : ServerPack), site.thread.left = false → received site.thread turn = some sPack →
      sPack.cmdHeader ≠ tcpCmdHeaderStr →
        ∃ outcome next, sitePass chs destIp site turn = some (outcome, next) ∧
          NoEffect site next ∧ RejectedOnce outcome.calls := by
  intro claim
  have reset : ((sitePass 4 "10.0.0.1" accepted (misheaded returnPackLen)).all fun (_, next) =>
      decide (next.globals ≠ accepted.globals)) = true := by
    decide
  obtain ⟨outcome, next, done, none_, _⟩ :=
    claim 4 "10.0.0.1" accepted (misheaded returnPackLen) zeroPack rfl rfl (by decide)
  rw [done] at reset
  exact absurd none_.globals (of_decide_eq_true reset)

end DvsServer.Network.ServerIf
