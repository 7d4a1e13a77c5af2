import DvsServer.Lib.Run
import DvsServer.Lib.SlotTable

/-!
# The listener of the control connections (`network/src/server.c`)

`listenThrFxn` takes the entry of `m_Client` at the number of connections accepted
so far.  A connection thread that ends marks its entry with `-1`, but nothing looks
for such entries.
-/

namespace DvsServer.Network.Listen

open DvsServer.Lib

abbrev clientNum : Nat := 20

structure ClientEnv where
  index : Int
  socket : Int
  ip : String

/-- Where a thread stands in `listenThrFxn`. -/
inductive ListenPc where
  /-- the test of the quit flag -/
  | head
  /-- in `accept`, with the value of `index` -/
  | accept (index : Int)
  | exited
  /-- after a store outside `m_Client` -/
  | outside

structure ServerEnv where
  clientCount : Int
  clients : Fin clientNum → ClientEnv
  listener : ListenPc
  quit : Bool
  /-- the entries whose connection threads are running -/
  threads : List (Fin clientNum)

/-- What `accept` and then the creation of the thread result in. -/
structure Accepted where
  clientSocket : Int
  ip : String
  created : Bool

inductive Mover where
  | main
  | listener (accepted : Option Accepted)
  /-- the connection thread at an entry ends -/
  | thread (entry : Fin clientNum)

inductive Act where
  | quiet
  /-- a connection has been accepted and is stored at an index -/
  | accepts (index : Int)
  | exits (index : Int)

abbrev History := List (Mover × Act)

def ServerEnv.setClient (e : ServerEnv) (entry : Fin clientNum) (client : ClientEnv) : ServerEnv :=
  { e with clients := Function.update e.clients entry client }

/-- One step of a thread; after a store outside the table nothing is defined. -/
def listenExec (e : ServerEnv) : Mover → Option (Act × ServerEnv)
  | .main =>
      match e.listener with
      | .outside => none
      | _ => some (.quiet, { e with quit := true })
  | .listener accepted =>
      match e.listener with
      | .head => some (.quiet, { e with listener := if e.quit then .exited else .accept e.clientCount })
      | .accept index =>
          match accepted with
          | none => some (.quiet, { e with listener := .exited })
          | some client =>
              match index? clientNum index with
              | none => some (.accepts index, { e with listener := .outside })
              | some entry =>
                  some (.accepts index,
                    { e.setClient entry ⟨index, client.clientSocket, client.ip⟩ with
                      clientCount := e.clientCount + 1
                      listener := .head
                      threads := if client.created then entry :: e.threads else e.threads })
      | .exited => none
      | .outside => none
  | .thread entry =>
      match e.listener with
      | .outside => none
      | _ =>
          if entry ∈ e.threads then
            some (.exits entry,
              { e.setClient entry { e.clients entry with index := -1 } with
                threads := e.threads.erase entry })
          else none

/-- The listener has begun to listen; the entries hold anything. -/
structure Started (e : ServerEnv) : Prop where
  clientCount : e.clientCount = 0
  listener : e.listener = .head
  threads : e.threads = []

/-! ## The property -/

/-- The indices of the live connections; newest first. -/
def live : History → List Int
  | [] => []
  | (_, .accepts index) :: before => index :: live before
  | (_, .exits index) :: before => (live before).erase index
  | (_, .quiet) :: before => live before

/-- Every connection was given an entry of the table that no live connection had. -/
def OwnEntries : History → Prop
  | [] => True
  | (_, .accepts index) :: before =>
      ((0 ≤ index ∧ index < clientNum) ∧ index ∉ live before) ∧ OwnEntries before
  | _ :: before => OwnEntries before

/-- At most `n` connections were live at any time. -/
def AtMostLive (n : Nat) : History → Prop
  | [] => True
  | event :: before => (live (event :: before)).length ≤ n ∧ AtMostLive n before

instance AtMostLive.decide (n : Nat) : (history : History) → Decidable (AtMostLive n history)
  | [] => .isTrue trivial
  | event :: before =>
      have := AtMostLive.decide n before
      inferInstanceAs (Decidable ((live (event :: before)).length ≤ n ∧ AtMostLive n before))

def Act.isAccept : Act → Bool
  | .accepts _ => true
  | _ => false

def accepted (history : History) : Nat := history.countP fun event => event.2.isAccept

/-! ## Every run -/

/-- As long as the table has not been overrun. -/
structure Within (history : History) (e : ServerEnv) : Prop where
  count : e.clientCount = accepted history
  room : accepted history ≤ clientNum
  index : ∀ index, e.listener = .accept index → index = accepted history
  live : ∀ index ∈ live history, 0 ≤ index ∧ index < accepted history
  own : OwnEntries history

/-- The last connection was stored behind the end of the table. -/
structure Overrun (history : History) (e : ServerEnv) : Prop where
  outside : e.listener = .outside
  count : clientNum < accepted history
  shared : ¬ OwnEntries history

theorem Within.quiet {history : History} {e after : ServerEnv} {mover : Mover}
    (within : Within history e) (clientCount : after.clientCount = e.clientCount)
    (index : ∀ index, after.listener = .accept index →
      e.listener = .accept index ∨ index = e.clientCount) :
    Within ((mover, .quiet) :: history) after := by
  constructor
  · exact clientCount.trans within.count
  · exact within.room
  · intro i at_
    rcases index i at_ with before | now
    · exact within.index i before
    · exact now.trans within.count
  · exact within.live
  · exact within.own

theorem accepted_accepts (mover : Mover) (index : Int) (history : History) :
    accepted ((mover, .accepts index) :: history) = accepted history + 1 :=
  List.countP_cons_of_pos rfl

theorem Within.accepts {history : History} {e after : ServerEnv} {mover : Mover} {index : Int}
    {entry : Fin clientNum} (within : Within history e) (at_ : e.listener = .accept index)
    (inside : index = entry) (clientCount : after.clientCount = e.clientCount + 1)
    (listener : after.listener = .head) : Within ((mover, .accepts index) :: history) after := by
  have index_eq := within.index index at_
  have counted := within.count
  have below := entry.isLt
  refine ⟨?_, ?_, fun i here => ?_, fun i member => ?_, ⟨⟨by omega, by omega⟩, fun taken => ?_⟩, within.own⟩
  · rw [accepted_accepts]
    omega
  · rw [accepted_accepts]
    omega
  · rw [listener] at here
    cases here
  · rw [accepted_accepts]
    rcases List.mem_cons.mp member with rfl | earlier
    · omega
    · have bounds := within.live i earlier
      omega
  · -- the entries of live connections are below the counter
    have bounds := within.live index taken
    omega

theorem Within.exits {history : History} {e after : ServerEnv} {mover : Mover} {index : Int}
    (within : Within history e) (clientCount : after.clientCount = e.clientCount)
    (listener : after.listener = e.listener) : Within ((mover, .exits index) :: history) after := by
  constructor
  · exact clientCount.trans within.count
  · exact within.room
  · rw [listener]
    exact within.index
  · exact fun i member => within.live i (List.mem_of_mem_erase member)
  · exact within.own

theorem Within.overruns {history : History} {e after : ServerEnv} {mover : Mover} {index : Int}
    (within : Within history e) (at_ : e.listener = .accept index)
    (beyond : index? clientNum index = none) (listener : after.listener = .outside) :
    Overrun ((mover, .accepts index) :: history) after := by
  have index_eq := within.index index at_
  have far : clientNum ≤ accepted history := by
    by_contra room
    have inside : index? clientNum index = some ⟨accepted history, by omega⟩ :=
      index?_eq_some.mpr index_eq
    rw [beyond] at inside
    cases inside
  refine ⟨listener, ?_, fun own => ?_⟩
  · rw [accepted_accepts]
    omega
  · have bounds := own.1.1
    omega

theorem Within.step {history : History} {e after : ServerEnv} {event : Mover × Act}
    (within : Within history e) (step : ExecStep listenExec e event after) :
    Within (event :: history) after ∨ Overrun (event :: history) after := by
  obtain ⟨mover, act⟩ := event
  unfold ExecStep listenExec at step
  cases mover with
  | main =>
      cases listener : e.listener with
      | outside =>
          rw [listener] at step
          cases step
      | _ =>
          rw [listener] at step
          cases Option.some.inj step
          exact .inl (within.quiet rfl fun _ at_ => .inl (listener.trans at_))
  | listener accepted =>
      cases listener : e.listener with
      | head =>
          rw [listener] at step
          cases Option.some.inj step
          refine .inl (within.quiet rfl fun index at_ => ?_)
          dsimp only at at_
          split at at_
          · cases at_
          · cases at_
            exact .inr rfl
      | accept index =>
          rw [listener] at step
          cases accepted with
          | none =>
              cases Option.some.inj step
              exact .inl (within.quiet rfl nofun)
          | some client =>
              dsimp only at step
              cases found : index? clientNum index with
              | none =>
                  rw [found] at step
                  cases Option.some.inj step
                  exact .inr (within.overruns listener found rfl)
              | some entry =>
                  rw [found] at step
                  cases Option.some.inj step
                  exact .inl (within.accepts listener (index?_eq_some.mp found) rfl rfl)
      | exited =>
          rw [listener] at step
          cases step
      | outside =>
          rw [listener] at step
          cases step
  | thread entry =>
      cases listener : e.listener with
      | outside =>
          rw [listener] at step
          cases step
      | _ =>
          rw [listener] at step
          dsimp only at step
          split at step
          · cases Option.some.inj step
            exact .inl (within.exits rfl rfl)
          · cases step

theorem Overrun.stuck {history : History} {e after : ServerEnv} {event : Mover × Act}
    (overrun : Overrun history e) : ¬ ExecStep listenExec e event after := by
  intro step
  obtain ⟨mover, act⟩ := event
  unfold ExecStep listenExec at step
  cases mover <;> rw [overrun.outside] at step <;> cases step

theorem Started.within {e : ServerEnv} (started : Started e) : Within [] e := by
  refine ⟨started.clientCount, Nat.zero_le _, fun index at_ => ?_, nofun, trivial⟩
  rw [started.listener] at at_
  cases at_

theorem run_within {start e : ServerEnv} {history : History} (started : Started start)
    (run : Run (ExecStep listenExec) start history e) : Within history e ∨ Overrun history e := by
  apply run.invariant fun history e => Within history e ∨ Overrun history e
  · exact .inl started.within
  · intro history e event after _ either step
    rcases either with within | overrun
    · exact within.step step
    · exact absurd step overrun.stuck

/-- In every run the entries are in range and not shared exactly if no more than
`CLIENTNUM` connections have been accepted, however many of them have ended. -/
theorem own_entries_iff_accepted_le {start e : ServerEnv} {history : History} (started : Started start)
    (run : Run (ExecStep listenExec) start history e) :
    OwnEntries history ↔ accepted history ≤ clientNum := by
  rcases run_within started run with within | overrun
  · exact ⟨fun _ => within.room, fun _ => within.own⟩
  · exact ⟨fun own => absurd own overrun.shared,
      fun room => absurd room (Nat.not_le.mpr overrun.count)⟩

def idle : ServerEnv := ⟨0, fun _ => ⟨0, 0, ""⟩, .head, false, []⟩

theorem idle_started : Started idle := ⟨rfl, rfl, rfl⟩

def connecting : List Mover := [.listener none, .listener (some ⟨5, "10.0.0.1", true⟩)]

/-- One client connects, leaves and connects again. -/
theorem own_entries_iff_accepted_le_twice : ∃ result,
    execAll listenExec (connecting ++ [.thread 0] ++ connecting) ([], idle) = some result ∧
      (OwnEntries result.1 ↔ accepted result.1 ≤ clientNum) := by
  obtain ⟨result, executed⟩ := Option.isSome_iff_exists.mp
    (show (execAll listenExec (connecting ++ [.thread 0] ++ connecting) ([], idle)).isSome = true by decide)
  exact ⟨result, executed, own_entries_iff_accepted_le idle_started (execAll_run .nil executed)⟩

/-- Twenty-one connections, each of which ends before the next one comes. -/
def oneAfterTheOther : List Mover :=
  (List.finRange clientNum).flatMap (fun entry => connecting ++ [.thread entry]) ++ connecting

/-- With never more than one live connection, the last one is stored outside the table. -/
theorem own_entries_fails : ¬ ∀ (start e : ServerEnv) (history : History), Started start →
    Run (ExecStep listenExec) start history e → AtMostLive clientNum history → OwnEntries history := by
  intro claim
  have overrun : ((execAll listenExec oneAfterTheOther ([], idle)).any fun (history, _) =>
      decide (AtMostLive clientNum history) && decide (clientNum < accepted history)) = true := by
    decide
  obtain ⟨⟨history, e⟩, ran, overrun⟩ := (Option.any_eq_true _ _).mp overrun
  obtain ⟨few, many⟩ := Bool.and_eq_true _ _ ▸ overrun
  have run := execAll_run .nil ran
  have own := claim idle e history idle_started run (of_decide_eq_true few)
  rcases run_within idle_started run with within | overrun
  · exact absurd within.room (Nat.not_le.mpr (of_decide_eq_true many))
  · exact overrun.shared own

end DvsServer.Network.Listen
