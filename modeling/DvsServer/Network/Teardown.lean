import DvsServer.Core.AddSteps
import DvsServer.Core.SendDelete
import DvsServer.Network.Connection

/-!
# Connections during the shutdown (`core/src/main.c`, `network/src/server.c`,
`network/src/serverIf.c`, `utils/com/src/rtpsend.c`)

`main` stops the threads, of which the session thread deletes all clients, then
calls `rtp_exit` and only then ends the connection threads.  A connection thread
tests the quit flag at the head of its loop and may stand in `recv` all the while.
-/

namespace DvsServer.Network.Teardown

open DvsServer.Lib DvsServer.Com.RtpSend DvsServer.Core.Session DvsServer.Network.Command
  DvsServer.Network.ServerIf

/-! ## A connection thread -/

/-- Where a thread stands in `tcpServerThrFxn`. -/
inductive ConnPc where
  /-- the loop condition -/
  | head
  | recv
  /-- in `add_client`, in a pass with these answers and this packet -/
  | adding (answers : Turn) (sPack : ServerPack) (at_ : Adder)
  /-- the test of `clientID` behind the loop -/
  | exit
  /-- in `del_client` -/
  | deleting (c : Fin maxClientNum) (at_ : DelPc)
  | exited

structure Connection where
  thread : TcpThread
  destIp : String
  pc : ConnPc

def Connection.goto (t : Connection) (pc : ConnPc) : Connection := { t with pc }

inductive ConnAct where
  | quiet
  | adds (act : AddAct)
  | deletes (act : DelAct)

def addResult (ret : Int) : AddResult :=
  match index? maxClientNum ret with
  | some c => .slot c
  | none => if ret = -2 then .noVideo else if ret = -3 then .noAudio else .noSlot

def addCall (destIp : String) (sPack : ServerPack) : AddCall :=
  ⟨destIp, sPack.videoport, sPack.audioport⟩

instance (turn : Turn) : Decidable turn.hungUp :=
  decidable_of_iff (turn.recv.pack.isNone = true ∧ turn.recv.returnBytes ≤ 0 ∧ turn.errno ≠ .eintr ∧
    turn.errno ≠ .ewouldblock ∧ turn.errno ≠ .eagain) (by rw [Turn.hungUp, Option.isNone_iff_eq_none])

/-- One step of a pass; the pass of an `add_client` is cut into the steps of that
call, any other command is carried out in one step. -/
def connStep (chs : Int) (quit : Bool) (answers : Turn) (t : Connection) (s : Server) :
    Option (ConnAct × Connection × Server) :=
  match t.pc with
  | .head => some (.quiet, t.goto (if quit || t.thread.clientQuit then .exit else .recv), s)
  | .recv =>
      match answers.dispatched with
      | none => some (.quiet, t.goto (if answers.hungUp then .exit else .head), s)
      | some sPack =>
          if commandOf sPack = some .addClient then
            some (.quiet, t.goto (.adding answers sPack .start), s)
          else
            (perform chs t.destIp (serve t.thread answers sPack).1 s).map fun after =>
              (.quiet, ⟨(serve t.thread answers sPack).2, t.destIp, .head⟩, after)
  | .adding answers sPack (.returned ret) =>
      some (.quiet,
        ⟨(serve t.thread { answers with added := addResult ret } sPack).2, t.destIp, .head⟩, s)
  | .adding answers sPack at_ =>
      (addStep chs (addCall t.destIp sPack) at_ s).map fun (act, next, after) =>
        (.adds act, t.goto (.adding answers sPack next), after)
  | .exit =>
      if t.thread.clientID = -1 then some (.quiet, ⟨t.thread.leave, t.destIp, .exited⟩, s)
      else
        match index? maxClientNum t.thread.clientID with
        | none => none
        | some c => some (.quiet, t.goto (.deleting c .start), s)
  | .deleting _ (.done _) => some (.quiet, ⟨t.thread.leave, t.destIp, .exited⟩, s)
  | .deleting c at_ =>
      (delStep chs c at_ s).map fun (act, next, after) =>
        (.deletes act, t.goto (.deleting c next), after)
  | .exited => none

/-! ## The system -/

/-- Where a thread stands in `remove_session_obj`. -/
inductive RemovePc where
  /-- the test of `pSession` -/
  | test
  /-- before `rtp_session_destroy` -/
  | destroy
  /-- before `pSession` is cleared -/
  | clear
  /-- before the time stamps are reset -/
  | reset

/-- Where `main` stands. -/
inductive MainPc where
  /-- the loop on the exit state -/
  | working
  /-- `main` waits for the threads, and the session thread is in its `i`-th `del_client` -/
  | stopping (i : Nat) (at_ : DelPc)
  | stopped
  /-- the `i`-th `remove_session_obj` of `rtp_exit` -/
  | removing (i : Nat) (at_ : RemovePc)
  /-- before `ortp_exit` -/
  | ortpExit
  /-- `clean_tcp_listen_thread` -/
  | clean (i : Nat)
  | returned

/-- Where a thread stands in `listenThrFxn`. -/
inductive ListenPc where
  | head
  | accept
  | exited

/-- An accepted connection: the peer, and what the memory of the new thread's
locals holds. -/
structure Arrival where
  destIp : String
  clientID : Int
  returnCMD : ReturnCMD
  resolution : UInt32

structure System where
  server : Server
  quit : Bool
  main : MainPc
  listener : ListenPc
  /-- the number of connection threads ever created -/
  clientCount : Nat
  conns : Nat → Connection

inductive Mover where
  | main
  /-- the listener, with the result of `accept` when it is called -/
  | listener (arrival : Option Arrival)
  /-- a connection thread, with the answers of the rest of the system -/
  | conn (k : Nat) (answers : Turn)

inductive MainAct where
  | quiet
  /-- `rtp_exit` is called -/
  | rtpExit

inductive Act where
  | main (act : MainAct)
  | listens
  | conn (act : ConnAct)

namespace System

def goto (p : System) (main : MainPc) : System := { p with main }

def setRtp (p : System) (rtp : SessionMgr) : System := { p with server := { p.server with rtp } }

def connect (p : System) (arrival : Arrival) : System :=
  { p with
    listener := .head
    clientCount := p.clientCount + 1
    conns := Function.update p.conns p.clientCount
      ⟨.start arrival.clientID arrival.returnCMD arrival.resolution, arrival.destIp, .head⟩ }

end System

/-- One step of `stop_all_threads`, `rtp_exit` and `clean_tcp_listen_thread`. -/
def mainStep (chs : Int) (p : System) : Option (MainAct × System) :=
  match p.main with
  | .working => some (.quiet, { p with quit := true, main := .stopping 0 .start })
  | .stopping i (.done _) => some (.quiet, p.goto (.stopping (i + 1) .start))
  | .stopping i at_ =>
      match index? maxClientNum i with
      | none => some (.quiet, p.goto .stopped)
      | some c =>
          (delStep chs c at_ p.server).map fun (_, next, after) =>
            (.quiet, { p with server := after, main := .stopping i next })
  | .stopped => some (.rtpExit, p.goto (.removing 0 .test))
  | .removing i at_ =>
      match index? maxSessionNum i with
      | none => some (.quiet, p.goto .ortpExit)
      | some entry =>
          match at_ with
          | .test =>
              some (.quiet, p.goto (.removing i (if (p.server.rtp.live entry).isSome then .destroy else .reset)))
          | .destroy => some (.quiet, p.goto (.removing i .clear))
          | .clear => some (.quiet, (p.setRtp (p.server.rtp.clear entry)).goto (.removing i .reset))
          | .reset => some (.quiet, (p.setRtp (p.server.rtp.resetStamps entry)).goto (.removing (i + 1) .test))
  | .ortpExit => some (.quiet, p.goto (.clean 0))
  | .clean i =>
      if i < p.clientCount then
        -- the socket is shut down and closed, and then the thread is joined
        match (p.conns i).pc with
        | .exited => some (.quiet, p.goto (.clean (i + 1)))
        | _ => none
      else some (.quiet, p.goto .returned)
  | .returned => none

def listenStep (p : System) (arrival : Option Arrival) : Option System :=
  match p.listener with
  | .head => some { p with listener := if p.quit then .exited else .accept }
  | .accept =>
      match arrival with
      | none => some { p with listener := .exited }
      | some arrival => some (p.connect arrival)
  | .exited => none

/-- One step of a thread; a step that cannot be made yet, or whose behaviour is not
defined, is none. -/
def teardownExec (chs : Int) (p : System) : Mover → Option (Act × System)
  | .main => (mainStep chs p).map fun (act, next) => (.main act, next)
  | .listener arrival => (listenStep p arrival).map fun next => (.listens, next)
  | .conn k answers =>
      if k < p.clientCount then
        (connStep chs p.quit answers (p.conns k) p.server).map fun (act, next, after) =>
          (.conn act, { p with server := after, conns := Function.update p.conns k next })
      else none

abbrev History := List (Mover × Act)

structure Started (chs : Int) (p : System) : Prop where
  server : Booted chs p.server
  quit : p.quit = false
  main : p.main = .working
  listener : p.listener = .head
  clientCount : p.clientCount = 0

/-! ## The property -/

def AddAct.creates : AddAct → Bool
  | .alloc _ | .create _ | .publish _ _ _ => true
  | _ => false

def Act.creates : Act → Bool
  | .conn (.adds act) => AddAct.creates act
  | _ => false

def Act.isRtpExit : Act → Bool
  | .main .rtpExit => true
  | _ => false

/-- No step of `create_rtp_session` follows the call of `rtp_exit`. -/
def CreatesBeforeExit (history : History) : Prop :=
  history.Pairwise fun later earlier => earlier.2.isRtpExit = true → later.2.creates = false

def MainPc.exiting : MainPc → Bool
  | .removing _ _ | .ortpExit | .clean _ | .returned => true
  | _ => false

def MainPc.removed : MainPc → Nat → Bool
  | .removing k .reset, i => i ≤ k
  | .removing k _, i => i < k
  | .ortpExit, _ | .clean _, _ | .returned, _ => true
  | _, _ => false

/-! ## The condition -/

def creating : Adder → Bool
  | .alloc _ _ _ | .create _ _ _ _ | .publish _ _ _ _ _ => true
  | _ => false

/-- The call has chosen its slot and has a session to make. -/
def AddCall.pending (chs : Int) (call : AddCall) : Adder → Bool
  | .record id medium i ret => 0 ≤ ret && creating (call.loop chs id medium (i + 1))
  | at_ => creating at_

def AddCall.asks (chs : Int) (call : AddCall) : Bool :=
  0 < groups chs && (0 < call.baseVideoPort || 0 < call.baseAudioPort)

def Connection.pending (chs : Int) (t : Connection) : Bool :=
  match t.pc with
  | .adding _ sPack at_ => AddCall.pending chs (addCall t.destIp sPack) at_
  | _ => false

def Connection.asks (chs : Int) (t : Connection) : Bool :=
  match t.pc with
  | .adding _ sPack _ => AddCall.asks chs (addCall t.destIp sPack)
  | _ => false

/-- When `rtp_exit` is called no thread has a session to make, and no thread that
chooses a slot after that asks for one. -/
def nonePending (chs : Int) (p : System) : Mover × Act → Bool
  | (_, .main .rtpExit) => decide (∀ k < p.clientCount, (p.conns k).pending chs = false)
  | (.conn k _, .conn (.adds (.scan (some _)))) => !(p.main.exiting && (p.conns k).asks chs)
  | _ => true

def NonePending (chs : Int) (p : System) (event : Mover × Act) : Prop :=
  nonePending chs p event = true

instance (chs : Int) (p : System) : DecidablePred (NonePending chs p) := fun event =>
  inferInstanceAs (Decidable (nonePending chs p event = true))

/-! ## One step of `add_client` -/

theorem loop_creating {chs : Int} {call : AddCall} {id : Fin maxClientNum} {medium : Medium} {i : Nat}
    (goes : AddCall.pending chs call (call.loop chs id medium i) = true) :
    creating (call.loop chs id medium i) = true := by
  have audio : ∀ j, AddCall.pending chs call (call.audioLoop chs id j) = true →
      creating (call.audioLoop chs id j) = true := by
    intro j goes
    unfold AddCall.audioLoop at goes ⊢
    split at goes
    · rename_i inLoop
      rw [if_pos inLoop]
      rfl
    · cases goes
  cases medium with
  | audio => exact audio i goes
  | video =>
      rw [AddCall.loop] at goes ⊢
      split at goes
      · rename_i inLoop
        rw [if_pos inLoop]
        rfl
      · rename_i ended
        rw [if_neg ended]
        exact audio 0 goes

theorem loop_asks {chs : Int} {call : AddCall} {id : Fin maxClientNum}
    (goes : AddCall.pending chs call (call.loop chs id .video 0) = true) :
    AddCall.asks chs call = true := by
  unfold AddCall.asks
  rw [AddCall.loop] at goes
  split at goes
  · rename_i inLoop
    simp [inLoop.1, inLoop.2]
  · rw [AddCall.audioLoop] at goes
    split at goes
    · rename_i inLoop
      simp [inLoop.1, inLoop.2]
    · cases goes

/-- What a step of `add_client` does to the sessions still to make and to those in the table. -/
structure AddStepOk (chs : Int) (call : AddCall) (at_ next : Adder) (act : AddAct) (s after : Server) :
    Prop where
  pending : AddCall.pending chs call next = true → AddCall.pending chs call at_ = true ∨
    ((∃ id, act = .scan (some id)) ∧ AddCall.asks chs call = true)
  creates : AddAct.creates act = true → AddCall.pending chs call at_ = true
  live : AddAct.creates act = false → ∀ entry, after.rtp.live entry = s.rtp.live entry

theorem addStep_creates {chs : Int} {call : AddCall} {at_ next : Adder} {s after : Server} {act : AddAct}
    (step : addStep chs call at_ s = some (act, next, after)) :
    AddStepOk chs call at_ next act s after := by
  unfold addStep at step
  cases at_ with
  | start =>
      dsimp only at step
      split at step
      · cases Option.some.inj step
        exact ⟨nofun, nofun, fun _ _ => rfl⟩
      · rename_i id free
        cases Option.some.inj step
        exact ⟨fun goes => .inr ⟨⟨id, rfl⟩, loop_asks goes⟩, nofun, fun _ _ => rfl⟩
  | alloc id medium i =>
      dsimp only at step
      split at step
      · cases Option.some.inj step
        exact ⟨fun _ => .inl rfl, fun _ => rfl, nofun⟩
      · cases Option.some.inj step
        exact ⟨fun _ => .inl rfl, fun _ => rfl, nofun⟩
  | create id medium i newSessionID =>
      cases Option.some.inj step
      exact ⟨fun _ => .inl rfl, fun _ => rfl, nofun⟩
  | publish id medium i newSessionID session =>
      cases Option.some.inj step
      exact ⟨fun _ => .inl rfl, fun _ => rfl, nofun⟩
  | record id medium i ret =>
      dsimp only at step
      split at step
      · cases step
      · rename_i g group
        cases Option.some.inj step
        refine ⟨fun goes => ?_, nofun, fun _ _ => rfl⟩
        split at goes
        · cases goes
        · rename_i made
          have further := loop_creating goes
          have stored : 0 ≤ ret := Int.not_lt.mp made
          exact .inl (by simp [AddCall.pending, stored, further])
  | mark id =>
      cases Option.some.inj step
      exact ⟨nofun, nofun, fun _ _ => rfl⟩
  | finish id =>
      cases Option.some.inj step
      exact ⟨nofun, nofun, fun _ _ => rfl⟩
  | returned ret => cases step

/-! ## One step of a connection thread -/

theorem serve_ops {t : TcpThread} {answers : Turn} {sPack : ServerPack} {call : Call} {destIp : String}
    {op : Op} (other : commandOf sPack ≠ some .addClient) (member : call ∈ (serve t answers sPack).1)
    (op_eq : call.op destIp = some op) :
    (∃ clientID chId, op = .openChannel clientID chId) ∨ ∃ clientID chId, op = .closeChannel clientID chId := by
  unfold serve runCommand at member
  unfold commandOf at other
  cases command : ServerCMD.ofCode sPack.serverCMD with
  | none =>
      rw [command] at member
      simp only [List.cons_append, List.nil_append, List.mem_cons, List.not_mem_nil, or_false] at member
      rcases member with rfl | rfl <;> cases op_eq
  | some command' =>
      rw [command] at member other
      cases command' with
      | addClient => exact absurd rfl other
      | openChannel =>
          simp only [List.cons_append, List.nil_append, List.mem_cons, List.not_mem_nil, or_false] at member
          rcases member with rfl | rfl | rfl <;> cases op_eq
          exact .inl ⟨_, _, rfl⟩
      | closeChannel =>
          simp only [List.cons_append, List.nil_append, List.mem_cons, List.not_mem_nil, or_false] at member
          rcases member with rfl | rfl | rfl <;> cases op_eq
          exact .inr ⟨_, _, rfl⟩
      | _ =>
          simp only [List.cons_append, List.nil_append, List.mem_cons, List.not_mem_nil, or_false] at member
          rcases member with rfl | rfl | rfl | rfl <;> cases op_eq

theorem setChannel_rtp {value : Bool} {s after : Server} {clientID chId ret : Int}
    (done : setChannel value s clientID chId = some (ret, after)) : after.rtp = s.rtp := by
  obtain ⟨c, _, _, ⟨_, same⟩ | ⟨_, stored⟩⟩ := setChannel_cases done
  · rw [same]
  · rw [stored]
    rfl

theorem perform_rtp {chs : Int} {destIp : String} {calls : List Call} {s after : Server}
    (flags : ∀ call ∈ calls, ∀ op, call.op destIp = some op →
      (∃ clientID chId, op = .openChannel clientID chId) ∨ ∃ clientID chId, op = .closeChannel clientID chId)
    (performed : perform chs destIp calls s = some after) : after.rtp = s.rtp := by
  induction calls generalizing s with
  | nil =>
      cases Option.some.inj performed
      rfl
  | cons call rest ih =>
      have flags' := fun later member => flags later (List.mem_cons_of_mem call member)
      rw [perform] at performed
      cases op_eq : call.op destIp with
      | none =>
          rw [op_eq] at performed
          exact ih flags' performed
      | some op =>
          rw [op_eq] at performed
          dsimp only at performed
          split at performed
          · cases performed
          · rename_i outcome next executed
            split at performed
            · have same : next.rtp = s.rtp := by
                rcases flags call List.mem_cons_self op op_eq with ⟨_, _, rfl⟩ | ⟨_, _, rfl⟩
                · obtain ⟨⟨_, _⟩, done, same⟩ := Option.map_eq_some_iff.mp executed
                  cases same
                  exact setChannel_rtp done
                · obtain ⟨⟨_, _⟩, done, same⟩ := Option.map_eq_some_iff.mp executed
                  cases same
                  exact setChannel_rtp done
              exact (ih flags' performed).trans same
            · cases performed

theorem delStep_live {chs : Int} {c : Fin maxClientNum} {at_ next : DelPc} {s after : Server} {act : DelAct}
    (step : delStep chs c at_ s = some (act, next, after)) {entry : Fin maxSessionNum}
    (free : s.rtp.live entry = none) : after.rtp.live entry = none := by
  unfold delStep at step
  cases at_ with
  | start =>
      dsimp only at step
      split at step <;> cases Option.some.inj step <;> exact free
  | pick medium i =>
      dsimp only at step
      split at step
      · split at step
        · cases step
        · split at step
          · cases step
          · cases Option.some.inj step
            exact free
          · cases Option.some.inj step
            exact free
      · cases Option.some.inj step
        exact free
  | test medium i target =>
      dsimp only at step
      split at step <;> cases Option.some.inj step <;> exact free
  | destroy medium i target =>
      cases Option.some.inj step
      exact free
  | clear medium i target =>
      cases Option.some.inj step
      by_cases same : entry = target
      · subst same
        exact clear_live_self ..
      · exact (clear_live_ne same).trans free
  | reset medium i target =>
      cases Option.some.inj step
      exact (resetStamps_live ..).trans free
  | unmark =>
      cases Option.some.inj step
      exact free
  | wipe =>
      dsimp only at step
      split at step
      · cases step
      · cases Option.some.inj step
        exact free
  | done ret => cases step

structure ConnStepOk (chs : Int) (t next : Connection) (act : ConnAct) (s after : Server) : Prop where
  pending : next.pending chs = true → t.pending chs = true ∨
    ((∃ id, act = .adds (.scan (some id))) ∧ t.asks chs = true)
  creates : (Act.conn act).creates = true → t.pending chs = true
  live : (Act.conn act).creates = false → ∀ entry, s.rtp.live entry = none → after.rtp.live entry = none

theorem ConnStepOk.other {chs : Int} {t next : Connection} {act : ConnAct} {s after : Server}
    (idle : next.pending chs = false) (silent : (Act.conn act).creates = false)
    (live : ∀ entry, s.rtp.live entry = none → after.rtp.live entry = none) :
    ConnStepOk chs t next act s after := by
  constructor
  · intro goes
    rw [idle] at goes
    cases goes
  · intro creates
    rw [silent] at creates
    cases creates
  · intro _
    exact live

theorem connStep_creates {chs : Int} {quit : Bool} {answers : Turn} {t next : Connection}
    {s after : Server} {act : ConnAct} (step : connStep chs quit answers t s = some (act, next, after)) :
    ConnStepOk chs t next act s after := by
  unfold connStep at step
  cases pc : t.pc with
  | head =>
      rw [pc] at step
      cases Option.some.inj step
      apply ConnStepOk.other
      · split <;> rfl
      · rfl
      · exact fun _ free => free
  | recv =>
      rw [pc] at step
      dsimp only at step
      split at step
      · cases Option.some.inj step
        apply ConnStepOk.other
        · split <;> rfl
        · rfl
        · exact fun _ free => free
      · split at step
        · cases Option.some.inj step
          exact .other rfl rfl fun _ free => free
        · rename_i sPack _ other
          obtain ⟨after', performed, same⟩ := Option.map_eq_some_iff.mp step
          cases same
          apply ConnStepOk.other rfl rfl
          intro entry free
          rw [perform_rtp (fun call member op => serve_ops other member) performed]
          exact free
  | adding answers' sPack at_ =>
      -- the thread is in the call, and the call goes on
      have goes_on : (addStep chs (addCall t.destIp sPack) at_ s).map (fun (act, next, after) =>
          (ConnAct.adds act, t.goto (.adding answers' sPack next), after)) = some (act, next, after) →
          ConnStepOk chs t next act s after := by
        intro step
        obtain ⟨⟨act', next', after'⟩, taken, same⟩ := Option.map_eq_some_iff.mp step
        cases same
        have ok := addStep_creates taken
        have asks_eq : t.asks chs = AddCall.asks chs (addCall t.destIp sPack) := by
          rw [Connection.asks, pc]
        have pending_eq : t.pending chs = AddCall.pending chs (addCall t.destIp sPack) at_ := by
          rw [Connection.pending, pc]
        refine ⟨fun goes => ?_, fun creates => ?_, fun silent entry free => ?_⟩
        · rw [pending_eq, asks_eq]
          rcases ok.pending goes with before | ⟨⟨id, scan⟩, asks⟩
          · exact .inl before
          · exact .inr ⟨⟨id, congrArg ConnAct.adds scan⟩, asks⟩
        · rw [pending_eq]
          exact ok.creates creates
        · exact (ok.live silent entry).trans free
      rw [pc] at step
      cases at_ with
      | returned ret =>
          cases Option.some.inj step
          exact .other rfl rfl fun _ free => free
      | _ => exact goes_on step
  | exit =>
      rw [pc] at step
      dsimp only at step
      split at step
      · cases Option.some.inj step
        exact .other rfl rfl fun _ free => free
      · split at step
        · cases step
        · cases Option.some.inj step
          exact .other rfl rfl fun _ free => free
  | deleting c at_ =>
      have goes_on : (delStep chs c at_ s).map (fun (act, next, after) =>
          (ConnAct.deletes act, t.goto (.deleting c next), after)) = some (act, next, after) →
          ConnStepOk chs t next act s after := by
        intro step
        obtain ⟨⟨act', next', after'⟩, taken, same⟩ := Option.map_eq_some_iff.mp step
        cases same
        exact .other rfl rfl fun _ => delStep_live taken
      rw [pc] at step
      cases at_ with
      | done ret =>
          cases Option.some.inj step
          exact .other rfl rfl fun _ free => free
      | _ => exact goes_on step
  | exited =>
      rw [pc] at step
      cases step

/-! ## Every run -/

theorem removed_exiting {main : MainPc} {i : Nat} (removed : main.removed i = true) :
    main.exiting = true := by
  cases main with
  | removing k at_ => rfl
  | ortpExit => rfl
  | clean k => rfl
  | returned => rfl
  | _ => cases removed

theorem removing_removed {k i : Nat} {at_ : RemovePc} (before : i < k) :
    (MainPc.removing k at_).removed i = true := by
  cases at_ with
  | reset => exact decide_eq_true (Nat.le_of_lt before)
  | _ => exact decide_eq_true before

/-- Once `rtp_exit` has been called no thread has a session to make, and the entries
`rtp_exit` has removed stay empty. -/
structure TornDown (chs : Int) (history : History) (p : System) : Prop where
  called : ∀ event ∈ history, event.2.isRtpExit = true → p.main.exiting = true
  settled : p.main.exiting = true → ∀ k < p.clientCount, (p.conns k).pending chs = false
  removed : ∀ i : Fin maxSessionNum, p.main.removed i = true → p.server.rtp.live i = none

theorem TornDown.early {chs : Int} {history : History} {p after : System} {event : Mover × Act}
    (down : TornDown chs history p) (before : p.main.exiting = false)
    (now : after.main.exiting = false) (silent : event.2.isRtpExit = false) :
    TornDown chs (event :: history) after := by
  refine ⟨fun other member exits => ?_, fun exiting => ?_, fun i removed => ?_⟩
  · rcases List.mem_cons.mp member with rfl | earlier
    · rw [silent] at exits
      cases exits
    · have exiting := down.called other earlier exits
      rw [before] at exiting
      cases exiting
  · rw [now] at exiting
    cases exiting
  · have exiting := removed_exiting removed
    rw [now] at exiting
    cases exiting

theorem TornDown.late {chs : Int} {history : History} {p after : System} {event : Mover × Act}
    (down : TornDown chs history p) (before : p.main.exiting = true) (now : after.main.exiting = true)
    (clientCount : after.clientCount = p.clientCount) (conns : after.conns = p.conns)
    (removed : ∀ i : Fin maxSessionNum, after.main.removed i = true → after.server.rtp.live i = none) :
    TornDown chs (event :: history) after := by
  refine ⟨fun _ _ _ => now, fun _ => ?_, removed⟩
  rw [clientCount, conns]
  exact down.settled before

theorem TornDown.stopping_step {chs : Int} {history : History} {p after : System} {act : MainAct} {i : Nat}
    {at_ : DelPc} (down : TornDown chs history p) (main : p.main = .stopping i at_)
    (step : mainStep chs p = some (act, after)) : TornDown chs ((.main, .main act) :: history) after := by
  have before : p.main.exiting = false := by
    rw [main]
    rfl
  have goes_on : (match index? maxClientNum i with
      | none => some (MainAct.quiet, p.goto .stopped)
      | some c => (delStep chs c at_ p.server).map fun (_, next, after) =>
          (MainAct.quiet, { p with server := after, main := .stopping i next })) =
        some (act, after) → TornDown chs ((.main, .main act) :: history) after := by
    intro step
    split at step
    · cases Option.some.inj step
      exact down.early before rfl rfl
    · obtain ⟨⟨_, next, server⟩, _, same⟩ := Option.map_eq_some_iff.mp step
      cases same
      exact down.early before rfl rfl
  unfold mainStep at step
  rw [main] at step
  cases at_ with
  | done ret =>
      cases Option.some.inj step
      exact down.early before rfl rfl
  | _ => exact goes_on step

theorem TornDown.removing_step {chs : Int} {history : History} {p after : System} {act : MainAct} {k : Nat}
    {at_ : RemovePc} (down : TornDown chs history p) (main : p.main = .removing k at_)
    (step : mainStep chs p = some (act, after)) : TornDown chs ((.main, .main act) :: history) after := by
  have before : p.main.exiting = true := by
    rw [main]
    rfl
  have earlier : ∀ i : Fin maxSessionNum, i.val < k → p.server.rtp.live i = none := fun i less =>
    down.removed i (by rw [main]; exact removing_removed less)
  unfold mainStep at step
  rw [main] at step
  dsimp only at step
  cases found : index? maxSessionNum k with
  | none =>
      rw [found] at step
      cases Option.some.inj step
      refine down.late before rfl rfl rfl fun i _ => earlier i ?_
      have below := i.isLt
      by_contra beyond
      have inside : index? maxSessionNum (k : Int) = some ⟨k, by omega⟩ := index?_val ⟨k, by omega⟩
      rw [found] at inside
      cases inside
  | some entry =>
      have at_k : k = entry.val := Int.ofNat.inj (index?_eq_some.mp found)
      -- the entries up to this one
      have upTo : ∀ {q : System}, (∀ i : Fin maxSessionNum, i.val < k → q.server.rtp.live i = none) →
          q.server.rtp.live entry = none →
          ∀ i : Fin maxSessionNum, i.val ≤ k → q.server.rtp.live i = none := by
        intro q below here i upper
        rcases Nat.lt_or_eq_of_le upper with less | same
        · exact below i less
        · rw [Fin.ext (same.trans at_k)]
          exact here
      rw [found] at step
      cases at_ with
      | test =>
          cases Option.some.inj step
          cases live : p.server.rtp.live entry with
          | none =>
              refine down.late before rfl rfl rfl fun i removed => ?_
              exact upTo earlier live i (of_decide_eq_true removed)
          | some session =>
              refine down.late before rfl rfl rfl fun i removed => ?_
              exact earlier i (of_decide_eq_true removed)
      | destroy =>
          cases Option.some.inj step
          refine down.late before rfl rfl rfl fun i removed => ?_
          exact earlier i (of_decide_eq_true removed)
      | clear =>
          cases Option.some.inj step
          refine down.late before rfl rfl rfl fun i removed => ?_
          refine upTo (fun j less => ?_) (clear_live_self ..) i (of_decide_eq_true removed)
          by_cases same : j = entry
          · rw [same]
            exact clear_live_self ..
          · exact (clear_live_ne same).trans (earlier j less)
      | reset =>
          cases Option.some.inj step
          refine down.late before rfl rfl rfl fun i removed => ?_
          have less : i.val < k + 1 := of_decide_eq_true removed
          refine (resetStamps_live ..).trans (down.removed i ?_)
          rw [main]
          exact decide_eq_true (Nat.le_of_lt_succ less)

theorem TornDown.main_step {chs : Int} {history : History} {p after : System} {act : MainAct}
    (down : TornDown chs history p) (settled : NonePending chs p (.main, .main act))
    (step : mainStep chs p = some (act, after)) :
    TornDown chs ((.main, .main act) :: history) after := by
  cases main : p.main with
  | working =>
      unfold mainStep at step
      rw [main] at step
      cases Option.some.inj step
      exact down.early (by rw [main]; rfl) rfl rfl
  | stopping i at_ => exact down.stopping_step main step
  | stopped =>
      unfold mainStep at step
      rw [main] at step
      cases Option.some.inj step
      refine ⟨fun _ _ _ => rfl, fun _ => of_decide_eq_true settled, fun i removed => ?_⟩
      exact absurd (of_decide_eq_true (show decide (i.val < 0) = true from removed)) (Nat.not_lt_zero _)
  | removing k at_ => exact down.removing_step main step
  | ortpExit =>
      unfold mainStep at step
      rw [main] at step
      cases Option.some.inj step
      refine down.late (by rw [main]; rfl) rfl rfl rfl fun i _ => ?_
      exact down.removed i (by rw [main]; rfl)
  | clean i =>
      have before : p.main.exiting = true := by
        rw [main]
        rfl
      have removed : ∀ j : Fin maxSessionNum, p.server.rtp.live j = none := fun j =>
        down.removed j (by rw [main]; rfl)
      unfold mainStep at step
      rw [main] at step
      dsimp only at step
      split at step
      · split at step
        · cases Option.some.inj step
          exact down.late before rfl rfl rfl fun j _ => removed j
        · cases step
      · cases Option.some.inj step
        exact down.late before rfl rfl rfl fun j _ => removed j
  | returned =>
      unfold mainStep at step
      rw [main] at step
      cases step

theorem TornDown.silent {chs : Int} {history : History} {p : System} {k : Nat} {next : Connection}
    {act : ConnAct} {after : Server} (down : TornDown chs history p) (below : k < p.clientCount)
    (ok : ConnStepOk chs (p.conns k) next act p.server after) (exiting : p.main.exiting = true) :
    (Act.conn act).creates = false := by
  cases creates : (Act.conn act).creates with
  | false => rfl
  | true =>
      have pending := ok.creates creates
      rw [down.settled exiting k below] at pending
      cases pending

theorem TornDown.conn_step {chs : Int} {history : History} {p : System} {k : Nat} {answers : Turn}
    {next : Connection} {act : ConnAct} {after : Server} (down : TornDown chs history p)
    (settled : NonePending chs p (.conn k answers, .conn act)) (below : k < p.clientCount)
    (ok : ConnStepOk chs (p.conns k) next act p.server after) :
    TornDown chs ((.conn k answers, .conn act) :: history)
      { p with server := after, conns := Function.update p.conns k next } := by
  refine ⟨fun event member exits => ?_, fun exiting j inside => ?_, fun i removed => ?_⟩
  · rcases List.mem_cons.mp member with rfl | earlier
    · cases exits
    · exact down.called event earlier exits
  · by_cases same : j = k
    · subst same
      dsimp only
      rw [Function.update_self]
      cases goes : next.pending chs with
      | false => rfl
      | true =>
          rcases ok.pending goes with before | ⟨⟨id, rfl⟩, asks⟩
          · rw [down.settled exiting j below] at before
            cases before
          · have apart : (!(p.main.exiting && (p.conns j).asks chs)) = true := settled
            have exiting' : p.main.exiting = true := exiting
            rw [exiting', asks] at apart
            cases apart
    · dsimp only
      rw [Function.update_of_ne same]
      exact down.settled exiting j inside
  · have exiting := removed_exiting removed
    exact ok.live (down.silent below ok exiting) i (down.removed i removed)

theorem TornDown.listen_step {chs : Int} {history : History} {p after : System}
    {arrival : Option Arrival} (down : TornDown chs history p) (step : listenStep p arrival = some after) :
    TornDown chs ((.listener arrival, .listens) :: history) after := by
  have called : ∀ event ∈ (Mover.listener arrival, Act.listens) :: history,
      event.2.isRtpExit = true → p.main.exiting = true := by
    intro event member exits
    rcases List.mem_cons.mp member with rfl | earlier
    · cases exits
    · exact down.called event earlier exits
  unfold listenStep at step
  cases listener : p.listener with
  | head =>
      rw [listener] at step
      cases Option.some.inj step
      exact ⟨called, down.settled, down.removed⟩
  | accept =>
      rw [listener] at step
      cases arrival with
      | none =>
          cases Option.some.inj step
          exact ⟨called, down.settled, down.removed⟩
      | some arrival =>
          cases Option.some.inj step
          refine ⟨called, fun exiting j inside => ?_, down.removed⟩
          dsimp only [System.connect] at inside ⊢
          by_cases new : j = p.clientCount
          · rw [new, Function.update_self]
            rfl
          · rw [Function.update_of_ne new]
            exact down.settled exiting j (by omega)
  | exited =>
      rw [listener] at step
      cases step

theorem Started.tornDown {chs : Int} {p : System} (started : Started chs p) : TornDown chs [] p := by
  refine ⟨fun event member => absurd member List.not_mem_nil, fun exiting => ?_, fun i removed => ?_⟩
  · rw [started.main] at exiting
    cases exiting
  · rw [started.main] at removed
    cases removed

theorem TornDown.step {chs : Int} {history : History} {p after : System} {event : Mover × Act}
    (down : TornDown chs history p) (settled : NonePending chs p event)
    (step : ExecStep (teardownExec chs) p event after) :
    TornDown chs (event :: history) after ∧
      (p.main.exiting = true → event.2.creates = false) := by
  obtain ⟨mover, act⟩ := event
  unfold ExecStep teardownExec at step
  cases mover with
  | main =>
      obtain ⟨⟨act', next⟩, taken, same⟩ := Option.map_eq_some_iff.mp step
      cases same
      exact ⟨down.main_step settled taken, fun _ => rfl⟩
  | listener arrival =>
      obtain ⟨next, taken, same⟩ := Option.map_eq_some_iff.mp step
      cases same
      exact ⟨down.listen_step taken, fun _ => rfl⟩
  | conn k answers =>
      dsimp only at step
      split at step
      · rename_i below
        obtain ⟨⟨act', next, server⟩, taken, same⟩ := Option.map_eq_some_iff.mp step
        cases same
        have ok := connStep_creates taken
        exact ⟨down.conn_step settled below ok, down.silent below ok⟩
      · cases step

/-- If no registration has a session to make when `rtp_exit` is called, and none that
chooses its slot later asks for one, then no session is made any more, and the table
stays as `rtp_exit` leaves it. -/
theorem settled_registrations_precede_exit {chs : Int} {start p : System} {history : History}
    (started : Started chs start)
    (run : Run (Guarded (NonePending chs) (ExecStep (teardownExec chs))) start history p) :
    CreatesBeforeExit history ∧
      ∀ i : Fin maxSessionNum, p.main.removed i = true → p.server.rtp.live i = none := by
  have both : TornDown chs history p ∧ CreatesBeforeExit history := by
    apply run.invariant fun history p => TornDown chs history p ∧ CreatesBeforeExit history
    · exact ⟨started.tornDown, List.Pairwise.nil⟩
    · rintro history p event after _ ⟨down, before⟩ ⟨settled, step⟩
      obtain ⟨down', silent⟩ := down.step settled step
      refine ⟨down', List.Pairwise.cons ?_ before⟩
      intro earlier member exits
      exact silent (down.called earlier member exits)
  exact ⟨both.2, both.1.removed⟩

def listening (s : Server) : System where
  server := s
  quit := false
  main := .working
  listener := .head
  clientCount := 0
  conns _ := ⟨.start (-1) .success 0, "", .exited⟩

theorem listening_started {chs : Int} {s : Server} (done : boot chs = some s) :
    Started chs (listening s) :=
  ⟨boot_booted done, rfl, rfl, rfl, rfl⟩

/-- A connection has been accepted and its thread waits for a packet. -/
def connecting : List Mover :=
  [.listener none, .listener (some ⟨"10.0.0.1", -1, .success, 0⟩), .conn 0 hangingUp]

def registering : Mover := .conn 0 (receiving 1 [0x88, 0x13, 0, 0, 0xFF, 0xFF, 0xFF, 0xFF] .noSlot)

/-- `main` sets the quit flag, no client is left to delete, and `rtp_exit` is called. -/
def stopping : List Mover := List.replicate 23 .main

/-- A thread that waits for a packet when `rtp_exit` is called, and whose client then hangs up. -/
theorem settled_registrations_precede_exit_hanging_up : ∃ result,
    (boot 4).bind (fun s => execAll (checked (NonePending 4) (teardownExec 4))
      (connecting ++ stopping ++ [.conn 0 hangingUp, .conn 0 hangingUp, .main]) ([], listening s)) =
        some result ∧ CreatesBeforeExit result.1 ∧
      ∀ i : Fin maxSessionNum, result.2.main.removed i = true → result.2.server.rtp.live i = none := by
  obtain ⟨result, executed⟩ := Option.isSome_iff_exists.mp
    (show ((boot 4).bind fun s => execAll (checked (NonePending 4) (teardownExec 4))
      (connecting ++ stopping ++ [.conn 0 hangingUp, .conn 0 hangingUp, .main])
        ([], listening s)).isSome = true by decide)
  obtain ⟨s, booted, ran⟩ := Option.bind_eq_some_iff.mp executed
  exact ⟨result, executed, settled_registrations_precede_exit (listening_started booted)
    ((execAll_run .nil ran).mono ExecStep.guarded)⟩

/-- A session is made after the call of `rtp_exit`; newest first. -/
def createsLate : List Act → Bool
  | [] => false
  | act :: before => act.creates && before.any Act.isRtpExit || createsLate before

theorem createsLate_not_before {history : History} (late : createsLate (history.map Prod.snd) = true) :
    ¬ CreatesBeforeExit history := by
  intro ordered
  induction ordered with
  | nil => cases late
  | @cons event before last _ ih =>
      rw [List.map_cons, createsLate] at late
      rcases Bool.or_eq_true _ _ ▸ late with now | earlier
      · obtain ⟨creates, exits⟩ := Bool.and_eq_true _ _ ▸ now
        obtain ⟨act, member, exit⟩ := List.any_eq_true.mp exits
        obtain ⟨other, inside, rfl⟩ := List.mem_map.mp member
        rw [last other inside exit] at creates
        cases creates
      · exact ih earlier

/-- A thread waits for a packet when `rtp_exit` is called, and then it gets an
`ADD_CLIENT`. -/
theorem registrations_precede_exit_fails : ¬ ∀ (chs : Int) (start p : System) (history : History),
    0 < chs → chs ≤ maxVideoChannel → chs % chsPerSession = 0 → Started chs start →
      Run (ExecStep (teardownExec chs)) start history p → CreatesBeforeExit history := by
  intro claim
  have late : ((boot 4).any fun s => (execAll (teardownExec 4)
      (connecting ++ stopping ++ List.replicate 5 registering) ([], listening s)).any fun (history, _) =>
        createsLate (history.map Prod.snd)) = true := by
    decide
  obtain ⟨s, booted, late⟩ := (Option.any_eq_true _ _).mp late
  obtain ⟨⟨history, p⟩, ran, late⟩ := (Option.any_eq_true _ _).mp late
  exact createsLate_not_before late (claim 4 (listening s) p history (by decide) (by decide)
    (by decide) (listening_started booted) (execAll_run .nil ran))

end DvsServer.Network.Teardown
