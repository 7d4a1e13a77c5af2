import DvsServer.Core.SessionRun
import DvsServer.Network.OwnSlot

/-!
# A connection and the client table

The connection thread makes its calls on the tables, and between its passes the
other threads make theirs.  The one local `clientID` remembers the latest result
of `add_client` only, so the exit path releases what the connection registered
exactly when no `add_client` follows a successful one.
-/

namespace DvsServer.Network.ServerIf

open DvsServer.Lib DvsServer.Core.Session DvsServer.Network.Command

/-- The table operation a call performs; `destIp` is the address of the peer. -/
def Call.op (destIp : String) : Call → Option Op
  | .addClient videoport audioport _ => some (.addClient destIp videoport audioport)
  | .delClient clientId => some (.delClient clientId)
  | .openChannel clientID chId => some (.openChannel clientID chId.toNat)
  | .closeChannel clientID chId => some (.closeChannel clientID chId.toNat)
  | .dispatch _ _ => none
  | .setExitState => none
  | .setResolution _ => none
  | .send _ => none

/-- Perform the calls of a pass; the tables must give the result that the pass
took for the result of its `add_client`. -/
def perform (chs : Int) (destIp : String) : List Call → Server → Option Server
  | [], s => some s
  | call :: rest, s =>
      match call.op destIp with
      | none => perform chs destIp rest s
      | some op =>
          match exec chs s op with
          | none => none
          | some (outcome, next) =>
              if call.added.all (· == outcome.ret) then perform chs destIp rest next else none

structure Conn where
  thread : TcpThread
  server : Server

inductive ConnEvent where
  | own (turn : Turn) (calls : List Call)
  | other (event : Event)

inductive ConnStep (chs : Int) (destIp : String) : Conn → ConnEvent → Conn → Prop where
  | own {conn next : Conn} {turn : Turn} {calls : List Call}
      (passed : tcpPass conn.thread turn = some (calls, next.thread))
      (performed : perform chs destIp calls conn.server = some next.server) :
      ConnStep chs destIp conn (.own turn calls) next
  | other {conn : Conn} {event : Event} {after : Server}
      (step : Step chs conn.server event after) :
      ConnStep chs destIp conn (.other event) ⟨conn.thread, after⟩

def passes : List ConnEvent → List PassEvent
  | [] => []
  | .own turn calls :: before => (turn, calls) :: passes before
  | .other _ :: before => passes before

/-- The results of `add_client` on this connection, newest first. -/
def addResults (history : List ConnEvent) : List AddResult :=
  ((passes history).map Prod.fst).filterMap Turn.adds

/-- No `add_client` follows a successful one. -/
def SuccessIsLast (history : List ConnEvent) : Prop :=
  ∀ c, AddResult.slot c ∉ (addResults history).tail

def Released (history : List ConnEvent) (s : Server) : Prop :=
  ∀ c : Fin maxClientNum, Returned c (passes history) → ¬ s.Active c

/-- The other threads delete no slot this connection has been given. -/
def OthersKeepOff : List ConnEvent → Prop
  | [] => True
  | .own _ _ :: before => OthersKeepOff before
  | .other (op, _) :: before =>
      (∀ c : Fin maxClientNum, op = .delClient c → ¬ Returned c (passes before)) ∧
        OthersKeepOff before

/-! ## The calls of one pass -/

theorem Passes.not_delClient {t after : TcpThread} {turn : Turn} {calls : List Call}
    (passes : Passes t turn calls after) (stays : after.left = false) (clientId : Int) :
    Call.delClient clientId ∉ calls := by
  intro member
  cases passes with
  | exits leaves => cases stays
  | idle _ _ _ _ replies =>
      obtain ⟨pack, impossible⟩ := replies _ member
      cases impossible
  | serves _ _ sPack _ _ _ _ replies =>
      rcases List.mem_append.mp member with inHeader | served
      · obtain ⟨pack, impossible⟩ := replies _ inHeader
        cases impossible
      · exact serve_not_delClient served

theorem Call.op_delClient {destIp : String} {call : Call} {clientId : Int}
    (deletes : call.op destIp = some (.delClient clientId)) : call = .delClient clientId := by
  cases call <;> cases deletes
  rfl

theorem Call.op_added (destIp : String) {call : Call} {ret : Int} (added : call.added = some ret) :
    ∃ videoport audioport, call.op destIp = some (.addClient destIp videoport audioport) := by
  cases call <;> cases added
  exact ⟨_, _, rfl⟩

theorem perform_active {chs : Int} {destIp : String} {calls : List Call} {s after : Server}
    {c : Fin maxClientNum} (performed : perform chs destIp calls s = some after)
    (keeps : Call.delClient c ∉ calls) (active : s.Active c) : after.Active c := by
  induction calls generalizing s with
  | nil =>
      cases Option.some.inj performed
      exact active
  | cons call rest ih =>
      have keeps' : Call.delClient c ∉ rest := fun later => keeps (List.mem_cons_of_mem _ later)
      rw [perform] at performed
      cases op_eq : call.op destIp with
      | none =>
          rw [op_eq] at performed
          exact ih performed keeps' active
      | some op =>
          rw [op_eq] at performed
          dsimp only at performed
          split at performed
          · cases performed
          · rename_i outcome next executed
            split at performed
            · refine ih performed keeps' (exec_effect executed
                |>.active_kept active fun deletes => keeps ?_)
              have same : op = .delClient c := deletes
              rw [Call.op_delClient (op_eq.trans (congrArg some same))]
              exact List.mem_cons_self
            · cases performed

theorem perform_added {chs : Int} {destIp : String} {calls : List Call} {s after : Server}
    {c : Fin maxClientNum} (performed : perform chs destIp calls s = some after)
    (keeps : Call.delClient c ∉ calls) {call : Call} (member : call ∈ calls)
    (added : call.added = some (c : Int)) : ¬ s.Active c ∧ after.Active c := by
  induction calls generalizing s with
  | nil => cases member
  | cons first rest ih =>
      have keeps' : Call.delClient c ∉ rest := fun later => keeps (List.mem_cons_of_mem _ later)
      rw [perform] at performed
      cases op_eq : first.op destIp with
      | none =>
          rw [op_eq] at performed
          rcases List.mem_cons.mp member with here | later
          · subst here
            obtain ⟨_, _, adds⟩ := Call.op_added destIp added
            rw [op_eq] at adds
            cases adds
          · exact ih performed keeps' later
      | some op =>
          rw [op_eq] at performed
          dsimp only at performed
          split at performed
          · cases performed
          · rename_i outcome next executed
            have effect := exec_effect executed
            split at performed
            · rename_i agrees
              rcases List.mem_cons.mp member with here | later
              · subst here
                obtain ⟨_, _, adds⟩ := Call.op_added destIp added
                rw [op_eq] at adds
                cases Option.some.inj adds
                rw [added, Option.all_some, beq_iff_eq] at agrees
                obtain ⟨free, active⟩ := effect.added agrees.symm
                exact ⟨free, perform_active performed keeps' active⟩
              · obtain ⟨free, active⟩ := ih performed keeps' later
                refine ⟨fun before => free (effect.active_kept before fun deletes => keeps ?_), active⟩
                have same : op = .delClient c := deletes
                rw [Call.op_delClient (op_eq.trans (congrArg some same))]
                exact List.mem_cons_self
            · cases performed

/-! ## Runs -/

theorem run_passes {chs : Int} {destIp : String} {start conn : Conn} {history : List ConnEvent}
    (run : Run (ConnStep chs destIp) start history conn) :
    Run (ExecStep tcpPass) start.thread (passes history) conn.thread := by
  induction run with
  | nil => exact .nil
  | snoc earlier step ih =>
      cases step with
      | own passed performed => exact ih.exec passed
      | other step => exact ih

theorem mem_addResults {initial : Int} {history : List ConnEvent} {t : TcpThread}
    (locals : Locals initial (passes history) t) (c : Fin maxClientNum) :
    AddResult.slot c ∈ addResults history ↔ Returned c (passes history) := by
  rw [addResults, List.mem_filterMap, locals.returned]
  constructor
  · rintro ⟨turn, member, added⟩
    exact ⟨turn, member, .slot c, added, rfl⟩
  · rintro ⟨turn, member, result, added, ret_eq⟩
    exact ⟨turn, member, AddResult.ret_eq_iff.mp ret_eq ▸ added⟩

theorem addResults_head (history : List ConnEvent) :
    (addResults history).head? = latestAdd ((passes history).map Prod.fst) :=
  List.head?_filterMap

/-- What a connection was given stays active while the others keep off, and no
slot is given to it twice. -/
structure KeptSlots (history : List ConnEvent) (s : Server) : Prop where
  active : ∀ c : Fin maxClientNum, Returned c (passes history) → s.Active c
  distinct : ∀ c, AddResult.slot c ∈ (addResults history).tail →
    (addResults history).head? ≠ some (.slot c)

theorem run_keptSlots {chs initial : Int} {destIp : String} {returnCMD : ReturnCMD}
    {resolution : UInt32} {s : Server} {conn : Conn} {history : List ConnEvent}
    (run : Run (ConnStep chs destIp) ⟨.start initial returnCMD resolution, s⟩ history conn)
    (keepOff : OthersKeepOff history) (stays : conn.thread.left = false) :
    KeptSlots history conn.server := by
  refine run.invariant (fun history conn => OthersKeepOff history →
    conn.thread.left = false → KeptSlots history conn.server) ?_ ?_ keepOff stays
  · exact fun _ _ => ⟨fun c ⟨_, inNil, _⟩ => (nomatch inNil), fun c inNil => (nomatch inNil)⟩
  intro before conn event next earlier ih step keepOff stays
  cases step with
  | @own _ turn calls passed performed =>
      obtain ⟨left, passes_⟩ := tcpPass_cases passed
      have kept := ih keepOff left
      have locals := run_locals (run_passes earlier) left
      have keeps := passes_.not_delClient stays
      obtain ⟨_, _, added⟩ := passes_.staying stays
      refine ⟨fun c returned => ?_, fun c inTail => ?_⟩
      · rcases returned_cons.mp returned with ⟨call, member, given⟩ | earlier
        · exact (perform_added performed (keeps c) member given).2
        · exact perform_active performed (keeps c) (kept.active c earlier)
      · have results : addResults (.own turn calls :: before) =
            turn.adds.toList ++ addResults before := by
          rw [addResults, passes, List.map_cons, List.filterMap_cons]
          cases turn.adds <;> rfl
        rw [results] at inTail ⊢
        cases result_eq : turn.adds with
        | none =>
            rw [result_eq] at inTail
            exact kept.distinct c inTail
        | some result =>
            rw [result_eq] at inTail
            intro same
            cases Option.some.inj same
            have active := kept.active c ((mem_addResults locals c).mp inTail)
            obtain ⟨call, member, given⟩ := (added c).mpr ⟨_, result_eq, rfl⟩
            exact (perform_added performed (keeps c) member given).1 active
  | @other event after step =>
      obtain ⟨op, outcome⟩ := event
      have kept := ih keepOff.2 stays
      refine ⟨fun c returned => step.effect.active_kept (kept.active c returned) fun deletes => ?_,
        kept.distinct⟩
      exact keepOff.1 c deletes returned

/-! ## The exit path -/

theorem Passes.leaving {t after : TcpThread} {turn : Turn} {calls : List Call}
    (passes : Passes t turn calls after) (leaves : after.left = true) : calls = (exitPath t).1 := by
  cases passes with
  | exits => rfl
  | idle _ _ _ _ _ _ _ left =>
      rw [left] at leaves
      cases leaves
  | serves _ _ sPack _ _ _ _ _ _ _ left =>
      rw [serve_left, left] at leaves
      cases leaves

/-- The exit path deletes the slot `clientID` names, and no other. -/
theorem perform_exitPath {chs : Int} {destIp : String} {t : TcpThread} {s after : Server}
    (performed : perform chs destIp (exitPath t).1 s = some after) :
    (t.clientID = -1 ∧ after = s) ∨ ∃ d : Fin maxClientNum, t.clientID = d ∧ ¬ after.Active d ∧
      ∀ c, c ≠ d → s.Active c → after.Active c := by
  rw [exitPath] at performed
  by_cases none_ : t.clientID = -1
  · rw [if_neg (not_not_intro none_)] at performed
    exact .inl ⟨none_, (Option.some.inj performed).symm⟩
  · rw [if_pos none_] at performed
    change (match exec chs s (.delClient t.clientID) with
      | none => none
      | some (_, next) => some next) = some after at performed
    split at performed
    · cases performed
    · rename_i outcome next executed
      cases Option.some.inj performed
      obtain ⟨⟨ret, after'⟩, done, same⟩ := Option.map_eq_some_iff.mp executed
      obtain ⟨d, at_d, _⟩ := delClient_cases done
      rw [at_d] at executed
      have effect := exec_effect executed
      refine .inr ⟨d, at_d, effect.deleted, fun c other active => ?_⟩
      refine effect.active_kept active fun deletes => other (Fin.ext ?_)
      injection deletes with slot
      omega

/-- When a connection ends, every slot it was given is inactive, if no
`add_client` followed a successful one; and if the other threads have kept off
these slots, only then. -/
theorem released_iff_success_is_last {chs initial : Int} {destIp : String} {returnCMD : ReturnCMD}
    {resolution : UInt32} {s : Server} {conn : Conn} {turn : Turn} {calls : List Call}
    {before : List ConnEvent}
    (run : Run (ConnStep chs destIp) ⟨.start initial returnCMD resolution, s⟩
      (.own turn calls :: before) conn) (leaves : conn.thread.left = true) :
    (SuccessIsLast before → Released before conn.server) ∧
      (OthersKeepOff before → (Released before conn.server ↔ SuccessIsLast before)) := by
  cases run with
  | @snoc _ state _ _ earlier step =>
  cases step with
  | own passed performed =>
  obtain ⟨left, passes_⟩ := tcpPass_cases passed
  have locals := run_locals (run_passes earlier) left
  rw [passes_.leaving leaves] at performed
  have released : SuccessIsLast before → Released before conn.server := by
    intro isLast c returned
    have member := (mem_addResults locals c).mpr returned
    have head : (addResults before).head? = some (.slot c) := by
      cases results : addResults before with
      | nil => rw [results] at member; cases member
      | cons result rest =>
          rw [results] at member
          rcases List.mem_cons.mp member with here | later
          · exact congrArg some here.symm
          · exact absurd later fun inRest => isLast c (by rw [results]; exact inRest)
    have at_c : state.thread.clientID = c := by
      rw [locals.clientID, ← addResults_head, head]
      rfl
    rcases perform_exitPath performed with ⟨none_, _⟩ | ⟨d, at_d, gone, _⟩
    · omega
    · rw [Fin.ext (by omega : c.val = d.val)]
      exact gone
  refine ⟨released, fun keepOff => ⟨fun gone c inTail => ?_, released⟩⟩
  have kept := run_keptSlots earlier keepOff left
  have returned := (mem_addResults locals c).mp (List.mem_of_mem_tail inTail)
  have active := kept.active c returned
  rcases perform_exitPath performed with ⟨_, same⟩ | ⟨d, at_d, _, others⟩
  · exact gone c returned (same ▸ active)
  · have same : c = d := by
      by_contra other
      exact gone c returned (others c other active)
    subst same
    cases head : (addResults before).head? with
    | none => rw [List.head?_eq_none_iff.mp head] at inTail; cases inTail
    | some result =>
        have ret_eq : result.ret = c := by
          rw [← at_d, locals.clientID, ← addResults_head, head]
          rfl
        rw [AddResult.ret_eq_iff.mp ret_eq] at head
        exact kept.distinct c inTail head

/-! ## A connection on its own -/

def connPass (chs : Int) (destIp : String) (conn : Conn) (turn : Turn) : Option (List Call × Conn) :=
  match tcpPass conn.thread turn with
  | none => none
  | some (calls, thread) =>
      match perform chs destIp calls conn.server with
      | none => none
      | some server => some (calls, ⟨thread, server⟩)

def ownEvents (history : List PassEvent) : List ConnEvent :=
  history.map fun (turn, calls) => .own turn calls

theorem connPass_step {chs : Int} {destIp : String} {conn next : Conn} {turn : Turn}
    {calls : List Call} (done : connPass chs destIp conn turn = some (calls, next)) :
    ConnStep chs destIp conn (.own turn calls) next := by
  unfold connPass at done
  split at done
  · cases done
  · rename_i calls' thread passed
    split at done
    · cases done
    · rename_i server performed
      cases Option.some.inj done
      exact .own passed performed

theorem run_alone {chs : Int} {destIp : String} {start conn : Conn} {history : List PassEvent}
    (run : Run (ExecStep (connPass chs destIp)) start history conn) :
    Run (ConnStep chs destIp) start (ownEvents history) conn := by
  induction run with
  | nil => exact .nil
  | @snoc before state next event earlier step ih =>
      obtain ⟨turn, calls⟩ := event
      exact .snoc ih (connPass_step step)

theorem passes_ownEvents (history : List PassEvent) : passes (ownEvents history) = history := by
  induction history with
  | nil => rfl
  | cons event before ih => exact congrArg (event :: ·) ih

/-- Let a new connection make passes on a server that has just been set up. -/
def serveAlone (chs : Int) (destIp : String) (turns : List Turn) :
    Option (List PassEvent × Conn) :=
  (boot chs).bind fun s =>
    execAll (connPass chs destIp) turns ([], ⟨.start (-1) .success 0, s⟩)

theorem serveAlone_run {chs : Int} {destIp : String} {turns : List Turn}
    {result : List PassEvent × Conn} (done : serveAlone chs destIp turns = some result) :
    ∃ s, Booted chs s ∧ Run (ConnStep chs destIp) ⟨.start (-1) .success 0, s⟩
      (ownEvents result.1) result.2 := by
  obtain ⟨s, booted, executed⟩ := Option.bind_eq_some_iff.mp done
  exact ⟨s, boot_booted booted, run_alone (execAll_run .nil executed)⟩

/-- A client registers on ports 5000 and 7000 and hangs up. -/
theorem released_iff_success_is_last_session :
    ∃ turn calls before conn, serveAlone 16 "10.0.0.1"
      [receiving 1 [0x88, 0x13, 0, 0, 0x58, 0x1B, 0, 0] (.slot 0), hangingUp] =
        some ((turn, calls) :: before, conn) ∧
      (SuccessIsLast (ownEvents before) → Released (ownEvents before) conn.server) ∧
        (OthersKeepOff (ownEvents before) →
          (Released (ownEvents before) conn.server ↔ SuccessIsLast (ownEvents before))) := by
  have left : ((serveAlone 16 "10.0.0.1"
      [receiving 1 [0x88, 0x13, 0, 0, 0x58, 0x1B, 0, 0] (.slot 0), hangingUp]).any
        fun (history, conn) => !history.isEmpty && conn.thread.left) = true := by
    decide
  obtain ⟨⟨history, conn⟩, served, left⟩ := (Option.any_eq_true _ _).mp left
  cases history with
  | nil => cases left
  | cons event before =>
      obtain ⟨turn, calls⟩ := event
      obtain ⟨s, _, run⟩ := serveAlone_run served
      exact ⟨turn, calls, before, conn, served, released_iff_success_is_last run left⟩

/-- A client that registers twice keeps its first slot after it has hung up. -/
theorem released_fails : ¬ ∀ (chs initial : Int) (destIp : String) (returnCMD : ReturnCMD)
    (resolution : UInt32) (s : Server) (conn : Conn) (turn : Turn) (calls : List Call)
    (before : List ConnEvent), Booted chs s →
      Run (ConnStep chs destIp) ⟨.start initial returnCMD resolution, s⟩
        (.own turn calls :: before) conn →
      (∀ event, .other event ∉ before) → conn.thread.left = true →
        Released before conn.server := by
  intro claim
  have kept : ((serveAlone 16 "10.0.0.1"
      [receiving 1 [0x88, 0x13, 0, 0, 0, 0, 0, 0] (.slot 0),
        receiving 1 [0x70, 0x17, 0, 0, 0, 0, 0, 0] (.slot 1), hangingUp]).any
        fun (history, conn) => conn.thread.left && decide (conn.server.Active 0) &&
          history.tail.any fun event => event.2.any fun call => call.added == some 0) = true := by
    decide
  obtain ⟨⟨history, conn⟩, served, kept⟩ := (Option.any_eq_true _ _).mp kept
  cases history with
  | nil => simp at kept
  | cons event before =>
      obtain ⟨turn, calls⟩ := event
      obtain ⟨s, booted, run⟩ := serveAlone_run served
      simp only [List.tail_cons, Bool.and_eq_true, decide_eq_true_eq, List.any_eq_true,
        beq_iff_eq] at kept
      obtain ⟨⟨left, active⟩, returned⟩ := kept
      refine claim _ _ _ _ _ _ _ _ _ (ownEvents before) booted run (fun other member => ?_) left 0 ?_
        active
      · obtain ⟨own, _, same⟩ := List.mem_map.mp member
        cases same
      · rw [passes_ownEvents]
        exact returned

end DvsServer.Network.ServerIf
