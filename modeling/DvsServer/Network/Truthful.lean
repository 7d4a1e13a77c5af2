import DvsServer.Core.AddClient
import DvsServer.Network.WrongHeader

/-!
# What the replies say

`tcpServerThrFxn` reports a failed registration only when `add_client` returned
`-1`, and never looks at what an open or close has done.  Its success replies are
true as long as no registration runs out of session entries and channels are
opened and closed by a connection that has a client.
-/

namespace DvsServer.Network.ServerIf

open DvsServer.Lib DvsServer.Com.RtpSend DvsServer.Core.Session DvsServer.Network.Command

def AddResult.chosen : AddResult → Option (Fin maxClientNum)
  | .slot c => some c
  | .noSlot => none
  | .noVideo => none
  | .noAudio => none

/-- The client of a connection: the slot its latest `add_client` returned, as long
as nobody deletes it. -/
def client : List ConnEvent → Option (Fin maxClientNum)
  | [] => none
  | .own turn _ :: before => turn.adds.elim (client before) AddResult.chosen
  | .other (.delClient clientId, _) :: before =>
      (client before).filter fun c => decide (clientId ≠ (c : Int))
  | .other _ :: before => client before

/-- The slot holds a session for every group of every medium that was asked for. -/
def HoldsSessions (chs : Int) (base : Medium → Int) (s : Server) (c : Fin maxClientNum) : Prop :=
  ∀ m, base m > 0 → ∀ g : Fin maxGroupNum, g.val < groups chs →
    ∃ i : Fin maxSessionNum, s.ids c m g = i ∧ s.rtp.live i ≠ none

def FlagsSet (value : Bool) (chId : Int) (s : Server) (c : Fin maxClientNum) : Prop :=
  ∀ ch, Concerns chId ch → (s.clients c).flag ch = value

def ActiveClient (history : List ConnEvent) (s : Server) (holds : Fin maxClientNum → Prop) : Prop :=
  ∃ c, client history = some c ∧ s.Active c ∧ holds c

/-- What the reply to a packet may say of the tables after the pass. -/
structure Truthful (chs : Int) (history : List ConnEvent) (s : Server) (sPack : ServerPack)
    (reply : ReturnPack) : Prop where
  added : commandOf sPack = some .addClient → (reply.returnCMD = .success ↔
    ActiveClient history s (HoldsSessions chs (basePort sPack.videoport sPack.audioport) s))
  opened : commandOf sPack = some .openChannel → reply.returnCMD = .success →
    ActiveClient history s (FlagsSet true sPack.chId.toNat s)
  closed : commandOf sPack = some .closeChannel → reply.returnCMD = .success →
    ActiveClient history s (FlagsSet false sPack.chId.toNat s)

structure CanBeTruthful (chs : Int) (before : List ConnEvent) (s : Server) (sPack : ServerPack) :
    Prop where
  fits : commandOf sPack = some .addClient → (∀ c, s.Active c) ∨
    need chs (basePort sPack.videoport sPack.audioport) ≤ freeEntries s.rtp
  registered : commandOf sPack = some .openChannel ∨ commandOf sPack = some .closeChannel →
    ∃ c, client before = some c

/-! ## The client of a connection -/

theorem AddResult.chosen_eq_some {result : AddResult} {c : Fin maxClientNum} :
    result.chosen = some c ↔ result = .slot c := by
  cases result <;> simp [AddResult.chosen]

theorem client_added {turn : Turn} {result : AddResult} (added : turn.adds = some result)
    (calls : List Call) (before : List ConnEvent) :
    client (.own turn calls :: before) = result.chosen := by
  rw [client, added]
  rfl

theorem client_kept {turn : Turn} (nothing : turn.adds = none) (calls : List Call)
    (before : List ConnEvent) : client (.own turn calls :: before) = client before := by
  rw [client, nothing]
  rfl

theorem client_other {event : Event} {before : List ConnEvent} {c : Fin maxClientNum}
    (found : client (.other event :: before) = some c) :
    client before = some c ∧ event.1 ≠ .delClient c := by
  obtain ⟨op, outcome⟩ := event
  cases op with
  | delClient clientId =>
      rw [client, Option.filter_eq_some_iff] at found
      refine ⟨found.1, fun same => ?_⟩
      injection same with same
      exact of_decide_eq_true found.2 same
  | addClient destIp videoPort audioPort => exact ⟨found, fun same => by cases same⟩
  | openChannel clientID chId => exact ⟨found, fun same => by cases same⟩
  | closeChannel clientID chId => exact ⟨found, fun same => by cases same⟩
  | sendToClient e => exact ⟨found, fun same => by cases same⟩

/-- The client is what `clientID` names, and it is active. -/
theorem run_client {chs : Int} {destIp : String} {start conn : Conn} {history : List ConnEvent}
    (run : Run (ConnStep chs destIp) start history conn) (stays : conn.thread.left = false)
    {c : Fin maxClientNum} (found : client history = some c) :
    conn.thread.clientID = c ∧ conn.server.Active c := by
  induction run generalizing c with
  | nil => cases found
  | @snoc before conn next event earlier step ih =>
      cases step with
      | @own _ turn calls passed performed =>
          obtain ⟨left, passes⟩ := tcpPass_cases passed
          obtain ⟨clientID, _, added⟩ := passes.staying stays
          have keeps := passes.not_delClient stays c
          cases adds : turn.adds with
          | none =>
              rw [client_kept adds] at found
              obtain ⟨named, active⟩ := ih left found
              rw [clientID, adds]
              exact ⟨named, perform_active performed keeps active⟩
          | some result =>
              rw [client_added adds, AddResult.chosen_eq_some] at found
              subst found
              obtain ⟨call, member, given⟩ := (added c).mpr ⟨_, adds, rfl⟩
              rw [clientID, adds]
              exact ⟨rfl, (perform_added performed keeps member given).2⟩
      | other step =>
          obtain ⟨kept, spared⟩ := client_other found
          obtain ⟨named, active⟩ := ih stays kept
          exact ⟨named, step.effect.active_kept active spared⟩

/-! ## The calls of a pass -/

theorem serve_addClient {t : TcpThread} {turn : Turn} {sPack : ServerPack}
    (command : commandOf sPack = some .addClient) :
    (serve t turn sPack).1 = [.dispatch sPack.serverCMD sPack.parameters,
      .addClient sPack.videoport sPack.audioport turn.added.ret, .send (serve t turn sPack).2.rPack] := by
  rw [commandOf] at command
  simp only [serve, runCommand, command]
  rfl

/-- An open is the channel command with the value `true`, a close that with `false`. -/
theorem serve_channel (value : Bool) {t : TcpThread} {turn : Turn} {sPack : ServerPack}
    (command : commandOf sPack = some (bif value then .openChannel else .closeChannel)) :
    (serve t turn sPack).1 = [.dispatch sPack.serverCMD sPack.parameters,
      bif value then .openChannel t.clientID sPack.chId else .closeChannel t.clientID sPack.chId,
      .send (serve t turn sPack).2.rPack] := by
  rw [commandOf] at command
  cases value with
  | true =>
      simp only [serve, runCommand, command]
      rfl
  | false =>
      simp only [serve, runCommand, command]
      rfl

theorem serve_addClient_reply {t : TcpThread} {turn : Turn} {sPack : ServerPack}
    (command : commandOf sPack = some .addClient) :
    (serve t turn sPack).2.rPack.returnCMD = .success ↔ turn.added ≠ .noSlot := by
  rw [commandOf] at command
  simp only [serve, runCommand, command, TcpThread.setClient]
  cases added : turn.added with
  | slot c =>
      have used : AddResult.ret (.slot c) ≠ -1 := by
        simp only [AddResult.ret]
        omega
      simp [used, TcpThread.setReturn]
  | noSlot => simp [AddResult.ret, TcpThread.setReturn]
  | noVideo => simp [AddResult.ret, TcpThread.setReturn]
  | noAudio => simp [AddResult.ret, TcpThread.setReturn]

theorem serve_channel_reply {t : TcpThread} {turn : Turn} {sPack : ServerPack}
    (command : commandOf sPack = some .openChannel ∨ commandOf sPack = some .closeChannel) :
    (serve t turn sPack).2.rPack.returnCMD = .success := by
  rw [commandOf] at command
  rcases command with command | command
  · simp only [serve, runCommand, command]
    rfl
  · simp only [serve, runCommand, command]
    rfl

theorem perform_one {chs : Int} {destIp : String} {code : UInt32} {parameters : List UInt8}
    {call : Call} {op : Op} {rPack : ReturnPack} {s after : Server} (is : call.op destIp = some op)
    (performed : perform chs destIp [.dispatch code parameters, call, .send rPack] s = some after) :
    ∃ outcome, exec chs s op = some (outcome, after) ∧
      call.added.all (· == outcome.ret) = true := by
  have dispatch : (Call.dispatch code parameters).op destIp = none := rfl
  have send : (Call.send rPack).op destIp = none := rfl
  simp only [perform, dispatch, is, send] at performed
  split at performed
  · cases performed
  · rename_i outcome next executed
    split at performed
    · rename_i agrees
      cases Option.some.inj performed
      exact ⟨outcome, executed, agrees⟩
    · cases performed

theorem perform_addClient {chs : Int} {destIp : String} {t : TcpThread} {turn : Turn}
    {sPack : ServerPack} {s after : Server} (command : commandOf sPack = some .addClient)
    (performed : perform chs destIp (serve t turn sPack).1 s = some after) :
    ∃ adding, addClient chs s destIp sPack.videoport sPack.audioport = some adding ∧
      adding.ret = turn.added.ret ∧ after = adding.server := by
  rw [serve_addClient command] at performed
  obtain ⟨outcome, executed, agrees⟩ := perform_one rfl performed
  obtain ⟨adding, done, same⟩ := Option.map_eq_some_iff.mp executed
  cases same
  have ret : turn.added.ret = adding.ret := by
    simpa only [Call.added, Option.all_some, beq_iff_eq] using agrees
  exact ⟨adding, done, ret.symm, rfl⟩

theorem perform_channel (value : Bool) {chs : Int} {destIp : String} {t : TcpThread} {turn : Turn}
    {sPack : ServerPack} {s after : Server}
    (command : commandOf sPack = some (bif value then .openChannel else .closeChannel))
    (performed : perform chs destIp (serve t turn sPack).1 s = some after) :
    ∃ ret, setChannel value s t.clientID sPack.chId.toNat = some (ret, after) := by
  rw [serve_channel value command] at performed
  cases value with
  | true =>
      obtain ⟨outcome, executed, _⟩ := perform_one rfl performed
      obtain ⟨⟨ret, server⟩, done, same⟩ := Option.map_eq_some_iff.mp executed
      cases same
      exact ⟨ret, done⟩
  | false =>
      obtain ⟨outcome, executed, _⟩ := perform_one rfl performed
      obtain ⟨⟨ret, server⟩, done, same⟩ := Option.map_eq_some_iff.mp executed
      cases same
      exact ⟨ret, done⟩

theorem setChannel_sets {value : Bool} {s after : Server} {c : Fin maxClientNum} {chId ret : Int}
    (done : setChannel value s c chId = some (ret, after)) (active : s.Active c) :
    after.Active c ∧ FlagsSet value chId after c := by
  obtain ⟨d, same, _, ⟨inactive, _⟩ | ⟨_, stored⟩⟩ := setChannel_cases done
  · have slot : c = d := Fin.ext (by omega)
    exact absurd (slot ▸ active) inactive
  · have slot : c = d := Fin.ext (by omega)
    subst slot stored
    constructor
    · exact (withFlags_active s c c _).mpr active
    · intro ch concerns
      rw [withFlags_flag_self]
      exact if_pos concerns

/-! ## Replies and outcomes -/

/-- A registration returns `-2` or `-3` exactly when a slot is free and the session
entries do not suffice. -/
theorem ranOut_iff {chs : Int} (bound : chs ≤ maxVideoChannel) {s : Server} {destIp : String}
    {videoport audioport : Int} {adding : Adding} {result : AddResult}
    (done : addClient chs s destIp videoport audioport = some adding) (ret : adding.ret = result.ret) :
    (result = .noVideo ∨ result = .noAudio) ↔
      ¬ ((∀ c, s.Active c) ∨ need chs (basePort videoport audioport) ≤ freeEntries s.rtp) := by
  have succeeds := addClient_succeeds_iff bound done
  have fails := addClient_code bound done
  have below : (result = .noVideo ∨ result = .noAudio) ↔ adding.ret < -1 := by
    rw [ret]
    cases result with
    | slot c =>
        have nonneg : ¬ (AddResult.slot c).ret < -1 := by
          simp only [AddResult.ret]
          omega
        simp [nonneg]
    | noSlot => simp [AddResult.ret]
    | noVideo => simp [AddResult.ret]
    | noAudio => simp [AddResult.ret]
  rw [below]
  by_cases busy : ∀ c, s.Active c
  · have negative : adding.ret < 0 := by
      by_contra nonneg
      obtain ⟨⟨c, free⟩, _⟩ := succeeds.mp (by omega)
      exact free (busy c)
    have code := fails negative
    rw [if_pos busy] at code
    constructor
    · intro less
      omega
    · intro neither
      exact absurd (.inl busy) neither
  · have idle : ∃ c, ¬ s.Active c := not_forall.mp busy
    constructor
    · rintro less (busy' | enough)
      · exact busy busy'
      · have nonneg := succeeds.mpr ⟨idle, enough⟩
        omega
    · intro neither
      rw [not_or] at neither
      have negative : adding.ret < 0 := by
        by_contra nonneg
        exact neither.2 (succeeds.mp (by omega)).2
      have code := fails negative
      rw [if_neg busy] at code
      split at code <;> omega

theorem added_truthful_iff {chs : Int} (bound : chs ≤ maxVideoChannel) {destIp : String}
    {t : TcpThread} {turn : Turn} {sPack : ServerPack} {s after : Server} {calls : List Call}
    {before : List ConnEvent} (command : commandOf sPack = some .addClient)
    (adds : turn.adds = some turn.added)
    (performed : perform chs destIp (serve t turn sPack).1 s = some after) :
    ((serve t turn sPack).2.rPack.returnCMD = .success ↔ ActiveClient (.own turn calls :: before) after
      (HoldsSessions chs (basePort sPack.videoport sPack.audioport) after)) ↔
      ((∀ c, s.Active c) ∨
        need chs (basePort sPack.videoport sPack.audioport) ≤ freeEntries s.rtp) := by
  obtain ⟨adding, done, ret, server⟩ := perform_addClient command performed
  have ranOut := ranOut_iff bound done ret
  rw [serve_addClient_reply command, server]
  have chosen := client_added adds calls before
  cases added : turn.added with
  | slot c =>
      rw [added] at ranOut ret chosen
      have registered : ActiveClient (.own turn calls :: before) adding.server
          (HoldsSessions chs (basePort sPack.videoport sPack.audioport) adding.server) := by
        have succeeded : 0 ≤ adding.ret := by
          rw [ret]
          exact Int.natCast_nonneg _
        obtain ⟨d, ret', registered⟩ := addClient_registers_slot bound done succeeded
        have same : c = d := Fin.ext (by
          have ret'' : (c.val : Int) = d := ret.symm.trans ret'
          omega)
        subst same
        refine ⟨c, chosen, ?_, ?_⟩
        · rw [Server.Active, registered.clientID]
          omega
        · intro m asked g below
          have inSpan : g.val < span chs (basePort sPack.videoport sPack.audioport m) := by
            rw [span, if_pos asked]
            exact below
          obtain ⟨i, at_, _, used⟩ := registered.recorded m g inSpan
          exact ⟨i, at_, used⟩
      have fits := not_not.mp (ranOut.not.mp (by simp))
      simp [registered, fits]
  | noSlot =>
      rw [added] at ranOut chosen
      have fits := not_not.mp (ranOut.not.mp (by simp))
      simp [ActiveClient, chosen, AddResult.chosen, fits]
  | noVideo =>
      rw [added] at ranOut chosen
      have short := ranOut.mp (.inl rfl)
      simp [ActiveClient, chosen, AddResult.chosen, short]
  | noAudio =>
      rw [added] at ranOut chosen
      have short := ranOut.mp (.inr rfl)
      simp [ActiveClient, chosen, AddResult.chosen, short]

theorem received_command {t : TcpThread} {turn : Turn} {sPack : ServerPack}
    (got : received t turn = some sPack) (valid : sPack.cmdHeader = tcpCmdHeaderStr) :
    turn.command = commandOf sPack := by
  apply Turn.command_eq
  unfold received at got
  split at got
  · cases got
  · rw [Turn.dispatched, got, Option.bind_some, if_neg fun both => both.1 valid]

theorem channel_truthful_iff {value : Bool} {s after : Server} {t : TcpThread} {turn : Turn}
    {sPack : ServerPack} {before : List ConnEvent} {calls : List Call} {ret : Int}
    (adds : turn.adds = none) (done : setChannel value s t.clientID sPack.chId.toNat = some (ret, after))
    (named : ∀ c, client before = some c → t.clientID = c ∧ s.Active c) :
    ActiveClient (.own turn calls :: before) after (FlagsSet value sPack.chId.toNat after) ↔
      ∃ c, client before = some c := by
  constructor
  · rintro ⟨c, found, _⟩
    exact ⟨c, (client_kept adds calls before).symm.trans found⟩
  · rintro ⟨c, found⟩
    obtain ⟨clientID, active⟩ := named c found
    rw [clientID] at done
    exact ⟨c, (client_kept adds calls before).trans found, setChannel_sets done active⟩

/-- After any calls of this connection and of others, a well-formed packet gets one reply,
and the reply is true exactly under the condition. -/
theorem replies_truthful_iff {chs initial : Int} {destIp : String} {returnCMD : ReturnCMD}
    {resolution : UInt32} {s : Server} {conn next : Conn} {before : List ConnEvent} {turn : Turn}
    {calls : List Call} {sPack : ServerPack} (bound : chs ≤ maxVideoChannel)
    (run : Run (ConnStep chs destIp) ⟨.start initial returnCMD resolution, s⟩ before conn)
    (step : ConnStep chs destIp conn (.own turn calls) next)
    (got : received conn.thread turn = some sPack) (valid : sPack.cmdHeader = tcpCmdHeaderStr) :
    ∃ reply, replies calls = [reply] ∧
      (Truthful chs (.own turn calls :: before) next.server sPack reply ↔
        CanBeTruthful chs before conn.server sPack) := by
  cases step with
  | own passed performed =>
  have left := (tcpPass_cases passed).1
  have command_eq := received_command got valid
  have adds_eq : turn.adds = if commandOf sPack = some .addClient then some turn.added else none := by
    rw [Turn.adds, command_eq]
  have named := fun c found => run_client run left (c := c) found
  have treats := tcpPass_treats passed
  rw [got] at treats
  obtain ⟨thread, server⟩ := next
  cases treats with
  | rejected _ wrong => exact absurd valid wrong
  | carriedOut _ wrong => exact absurd valid wrong
  | served =>
  refine ⟨_, serve_replies conn.thread turn sPack, ?_⟩
  constructor
  · intro truthful
    constructor
    · intro command
      rw [if_pos command] at adds_eq
      exact (added_truthful_iff bound command adds_eq performed).mp (truthful.added command)
    · rintro (command | command)
      · rw [if_neg (by rw [command]; decide)] at adds_eq
        obtain ⟨ret, done⟩ := perform_channel true command performed
        exact (channel_truthful_iff adds_eq done named).mp
          (truthful.opened command (serve_channel_reply (.inl command)))
      · rw [if_neg (by rw [command]; decide)] at adds_eq
        obtain ⟨ret, done⟩ := perform_channel false command performed
        exact (channel_truthful_iff adds_eq done named).mp
          (truthful.closed command (serve_channel_reply (.inr command)))
  · intro can
    constructor
    · intro command
      rw [if_pos command] at adds_eq
      exact (added_truthful_iff bound command adds_eq performed).mpr (can.fits command)
    · intro command _
      rw [if_neg (by rw [command]; decide)] at adds_eq
      obtain ⟨ret, done⟩ := perform_channel true command performed
      exact (channel_truthful_iff adds_eq done named).mpr (can.registered (.inl command))
    · intro command _
      rw [if_neg (by rw [command]; decide)] at adds_eq
      obtain ⟨ret, done⟩ := perform_channel false command performed
      exact (channel_truthful_iff adds_eq done named).mpr (can.registered (.inr command))

/-- A packet with ports 5000 and 7000, and one with a video port only. -/
def registering : AddResult → Turn := receiving 1 [0x88, 0x13, 0, 0, 0x58, 0x1B, 0, 0]

def registeringVideo : AddResult → Turn := receiving 1 [0x88, 0x13, 0, 0, 0, 0, 0, 0]

/-- A client registers and opens channel 2. -/
theorem replies_truthful_iff_opened :
    ∃ before conn turn calls next sPack reply, conn.thread.clientID = 0 ∧
      ConnStep 4 "10.0.0.1" conn (.own turn calls) next ∧ replies calls = [reply] ∧
        (Truthful 4 (.own turn calls :: before) next.server sPack reply ↔
          CanBeTruthful 4 before conn.server sPack) := by
  have opens : ((serveAlone 4 "10.0.0.1" [registering (.slot 0)]).any fun (_, conn) =>
      decide (conn.thread.clientID = 0) &&
        (connPass 4 "10.0.0.1" conn (receiving 3 [2, 0, 0, 0, 0, 0, 0, 0] .noSlot)).isSome &&
          (received conn.thread (receiving 3 [2, 0, 0, 0, 0, 0, 0, 0] .noSlot)).any fun sPack =>
            decide (sPack.cmdHeader = tcpCmdHeaderStr)) = true := by
    decide
  obtain ⟨⟨history, conn⟩, served, here⟩ := (Option.any_eq_true _ _).mp opens
  simp only [Bool.and_eq_true, decide_eq_true_eq] at here
  obtain ⟨⟨named, passed⟩, found⟩ := here
  obtain ⟨⟨calls, next⟩, passed⟩ := Option.isSome_iff_exists.mp passed
  obtain ⟨sPack, got, valid⟩ := (Option.any_eq_true _ _).mp found
  obtain ⟨s, _, run⟩ := serveAlone_run served
  have step := connPass_step passed
  obtain ⟨reply, once, truthful⟩ :=
    replies_truthful_iff (by decide) run step got (of_decide_eq_true valid)
  exact ⟨_, conn, _, calls, next, sPack, reply, named, step, once, truthful⟩

/-- The third registration finds no entry for its audio sessions, and is reported as a
success. -/
theorem replies_truthful_fails : ¬ ∀ (chs initial : Int) (destIp : String) (s : Server)
    (conn next : Conn) (before : List ConnEvent) (turn : Turn) (calls : List Call)
    (sPack : ServerPack) (reply : ReturnPack),
      0 < chs → chs ≤ maxVideoChannel → chs % chsPerSession = 0 → Booted chs s →
        Run (ConnStep chs destIp) ⟨.start initial .success 0, s⟩ before conn →
          ConnStep chs destIp conn (.own turn calls) next →
            received conn.thread turn = some sPack → sPack.cmdHeader = tcpCmdHeaderStr →
              replies calls = [reply] →
                Truthful chs (.own turn calls :: before) next.server sPack reply := by
  intro claim
  have third : ((serveAlone 32 "10.0.0.1" [registering (.slot 0), registeringVideo (.slot 1)]).any
      fun (_, conn) => (received conn.thread (registering .noAudio)).any (fun sPack =>
        decide (sPack.cmdHeader = tcpCmdHeaderStr)) &&
          (connPass 32 "10.0.0.1" conn (registering .noAudio)).any fun (calls, _) =>
            (replies calls).map ReturnPack.returnCMD == [.success]) = true := by
    decide
  obtain ⟨⟨history, conn⟩, served, here⟩ := (Option.any_eq_true _ _).mp third
  simp only [Bool.and_eq_true] at here
  obtain ⟨found, passes⟩ := here
  obtain ⟨sPack, got, valid⟩ := (Option.any_eq_true _ _).mp found
  obtain ⟨⟨calls, next⟩, passed, codes⟩ := (Option.any_eq_true _ _).mp passes
  obtain ⟨reply, once, success⟩ := List.map_eq_singleton_iff.mp (beq_iff_eq.mp codes)
  obtain ⟨s, booted, run⟩ := serveAlone_run served
  have truthful := claim 32 (-1) "10.0.0.1" s conn next _ _ calls sPack reply (by decide) (by decide)
    (by decide) booted run (connPass_step passed) got (of_decide_eq_true valid) once
  have command : commandOf sPack = some .addClient :=
    (received_command got (of_decide_eq_true valid)).symm.trans (by decide)
  obtain ⟨c, chosen, _⟩ := (truthful.added command).mp success
  rw [client_added (show (registering .noAudio).adds = some .noAudio by decide)] at chosen
  cases chosen

end DvsServer.Network.ServerIf
