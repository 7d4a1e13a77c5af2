import DvsServer.Uart.Listener

/-!
# A full table of UART clients

When all slots are busy the listener returns from its thread function, with the
accepted socket neither stored nor closed, and no further client is ever served.
It goes on in exactly the runs in which each of its searches ends at an idle slot.
-/

namespace DvsServer.Uart.Listener

open DvsServer.Lib

/-! ## The property -/

/-- `accept` or `pthread_create` has failed. -/
def Act.fails : Act → Bool
  | .stops | .createFails => true
  | _ => false

/-- The flag of the latest `accept`. -/
def latestIdle : History → Option Bool
  | [] => none
  | (_, .accepts _ idle) :: _ => some idle
  | _ :: before => latestIdle before

/-- No connection is refused that was accepted while a slot was idle. -/
def Granted : History → Prop
  | [] => True
  | (_, .refuses _) :: before => latestIdle before ≠ some true ∧ Granted before
  | _ :: before => Granted before

/-- The accepted sockets that have not been stored. -/
def unstored : History → List Int
  | [] => []
  | (_, .accepts clientSocket _) :: before => clientSocket :: unstored before
  | (_, .stores _ clientSocket) :: before => (unstored before).erase clientSocket
  | _ :: before => unstored before

/-- The accepted socket the listener is about to store. -/
def Service.storing (p : Service) : Option Int :=
  match p.listener with
  | .scan clientSocket _ | .number clientSocket _ | .store clientSocket => some clientSocket
  | _ => none

/-- The listener is in its loop, idle slots are given away, and every accepted socket
is stored or about to be. -/
structure Survives (history : History) (p : Service) : Prop where
  stays : p.listener ≠ .returned
  granted : Granted history
  stored : unstored history = p.storing.toList

/-- The search of the listener has come to the last slot, and that is busy too. -/
def Service.full (p : Service) : Bool :=
  match p.listener with
  | .scan _ i => i.val + 1 = maxClientNum && !decide (p.sockets i < 0)
  | _ => false

/-- The listener does not end its search at a last slot that is busy. -/
def FindsIdle (p : Service) : Mover × Act → Prop
  | (.listener _ _, _) => p.full = false
  | (.thread _ _, _) => True

instance (p : Service) : DecidablePred (FindsIdle p)
  | (.listener _ _, _) => inferInstanceAs (Decidable (p.full = false))
  | (.thread _ _, _) => .isTrue trivial

/-! ## Idle slots are given away -/

/-- A search that began while a slot was idle has an idle slot ahead. -/
def IdleAhead (history : History) (p : Service) : Prop :=
  ∀ clientSocket i, p.listener = .scan clientSocket i → latestIdle history = some true →
    ∃ j, i ≤ j ∧ p.sockets j < 0

theorem IdleAhead.listen {history : History} {p after : Service} {mover : Mover} {act : Act}
    (ahead : IdleAhead history p) (listens : Listens p act after) :
    IdleAhead ((mover, act) :: history) after := by
  intro clientSocket i at_ idle
  cases listens with
  | accept here valid new =>
      cases at_
      have some_idle : p.idle = true := Option.some.inj idle
      obtain ⟨j, negative⟩ := of_decide_eq_true some_idle
      exact ⟨j, Fin.zero_le j, negative⟩
  | @next socket i' j here busy follows =>
      cases at_
      obtain ⟨k, above, negative⟩ := ahead _ _ here idle
      refine ⟨k, ?_, negative⟩
      have differs : k ≠ i' := by
        intro same
        rw [same] at negative
        exact busy negative
      have further : i'.val ≠ k.val := fun same => differs (Fin.ext same.symm)
      have above' : i'.val ≤ k.val := above
      exact Fin.le_def.mpr (by omega)
  | stop => cases at_
  | found => cases at_
  | refuse => cases at_
  | number => cases at_
  | store => cases at_
  | create => cases at_
  | fail => cases at_

/-- The threads only make slots idle. -/
theorem Serves.keeps {p after : Service} {k : Nat} {gone : Int} {act : Act}
    (serves : Serves p k gone act after) :
    after.listener = p.listener ∧ ∀ i, p.sockets i < 0 → after.sockets i < 0 := by
  cases serves with
  | @clear i at_ =>
      refine ⟨rfl, fun j negative => ?_⟩
      by_cases same : j = i
      · subst same
        exact (congrArg (· < 0) (setSocket_self p j (-1))).mpr (by decide)
      · exact (congrArg (· < 0) (setSocket_ne same (-1))).mpr negative
  | _ => exact ⟨rfl, fun _ => id⟩

theorem Serves.latestIdle {p after : Service} {k : Nat} {gone : Int} {mover : Mover} {act : Act}
    {history : History} (serves : Serves p k gone act after) :
    latestIdle ((mover, act) :: history) = latestIdle history := by
  cases serves <;> rfl

theorem IdleAhead.step {history : History} {p after : Service} {event : Mover × Act}
    (ahead : IdleAhead history p) (steps : Steps p event after) :
    IdleAhead (event :: history) after := by
  cases steps with
  | listener listens => exact ahead.listen listens
  | thread below serves =>
      intro clientSocket i at_ idle
      obtain ⟨listener, keeps⟩ := serves.keeps
      rw [listener] at at_
      rw [serves.latestIdle] at idle
      obtain ⟨j, above, negative⟩ := ahead clientSocket i at_ idle
      exact ⟨j, above, keeps j negative⟩

theorem Granted.step {history : History} {p after : Service} {event : Mover × Act}
    (granted : Granted history) (ahead : IdleAhead history p) (steps : Steps p event after) :
    Granted (event :: history) := by
  cases steps with
  | listener listens =>
      cases listens with
      | @refuse socket i at_ busy last =>
          refine ⟨fun idle => ?_, granted⟩
          obtain ⟨j, above, negative⟩ := ahead socket i at_ idle
          have above' : i.val ≤ j.val := above
          have same : j = i := Fin.ext (by omega)
          rw [same] at negative
          exact busy negative
      | _ => exact granted
  | thread below serves =>
      cases serves <;> exact granted

/-- In every run of the listener, whatever fails or is busy. -/
theorem run_granted {start p : Service} {history : History} (started : Started start)
    (run : Run (ExecStep serviceExec) start history p) : Granted history := by
  have both : IdleAhead history p ∧ Granted history := by
    apply run.invariant fun history p => IdleAhead history p ∧ Granted history
    · refine ⟨fun socket i at_ => ?_, trivial⟩
      rw [started.listener] at at_
      cases at_
    · rintro history p event after _ ⟨ahead, granted⟩ step
      have steps := serviceExec_cases step
      exact ⟨ahead.step steps, granted.step ahead steps⟩
  exact both.2

/-! ## The listener stays in its loop -/

/-- The listener is in its loop, and what it has accepted is stored or about to be. -/
structure InLoop (history : History) (p : Service) : Prop where
  stays : p.listener ≠ .returned
  stored : unstored history = p.storing.toList

theorem InLoop.step {history : History} {p after : Service} {event : Mover × Act}
    (inLoop : InLoop history p) (finds : FindsIdle p event) (succeeds : event.2.fails = false)
    (steps : Steps p event after) : InLoop (event :: history) after := by
  have stored := inLoop.stored
  cases steps with
  | listener listens =>
      cases listens with
      | stop => cases succeeds
      | fail => cases succeeds
      | accept at_ valid new =>
          rw [Service.storing, at_] at stored
          exact ⟨nofun, congrArg (List.cons _) stored⟩
      | found at_ idle =>
          rw [Service.storing, at_] at stored
          exact ⟨nofun, stored⟩
      | next at_ busy follows =>
          rw [Service.storing, at_] at stored
          exact ⟨nofun, stored⟩
      | refuse at_ busy last =>
          change p.full = false at finds
          rw [Service.full, at_] at finds
          simp [busy, last] at finds
      | number at_ =>
          rw [Service.storing, at_] at stored
          exact ⟨nofun, stored⟩
      | @store socket i at_ slot =>
          rw [Service.storing, at_] at stored
          refine ⟨nofun, ?_⟩
          rw [unstored, stored]
          simp [Service.storing, Service.goto]
      | create at_ =>
          rw [Service.storing, at_] at stored
          exact ⟨nofun, stored⟩
  | thread below serves =>
      have listener := serves.keeps.1
      refine ⟨fun returned => inLoop.stays (listener.symm.trans returned), ?_⟩
      have same : after.storing = p.storing := by
        rw [Service.storing, listener]
        rfl
      rw [same, ← stored]
      cases serves <;> rfl

/-- As long as no call fails and no search finds all slots busy, the listener
serves on. -/
theorem listener_survives {start p : Service} {history : History} (started : Started start)
    (run : Run (Guarded FindsIdle (ExecStep serviceExec)) start history p)
    (succeed : ∀ event ∈ history, event.2.fails = false) : Survives history p := by
  have inLoop : (∀ event ∈ history, event.2.fails = false) → InLoop history p := by
    apply run.invariant fun history p => (∀ event ∈ history, event.2.fails = false) → InLoop history p
    · intro _
      refine ⟨fun returned => ?_, ?_⟩
      · rw [started.listener] at returned
        cases returned
      · rw [Service.storing, started.listener]
        rfl
    · rintro history p event after _ ih ⟨finds, step⟩ succeed
      have before := ih fun earlier member => succeed earlier (List.mem_cons_of_mem event member)
      exact before.step finds (succeed event List.mem_cons_self) (serviceExec_cases step)
  exact ⟨(inLoop succeed).stays, run_granted started run.of_guarded, (inLoop succeed).stored⟩

/-- The service when the listener has begun to listen. -/
def listening : Service where
  sockets _ := -1
  clientNo := -1
  listener := .accept
  threadCount := 0
  threads _ := .exited
  opened := []

theorem listening_started : Started listening := ⟨fun _ => rfl, rfl, rfl, rfl⟩

/-- A client connects and gets slot `i`; the descriptor is `i + 5`. -/
def connecting (i : Nat) : List Mover := List.replicate (i + 5) (.listener (some (i + 5)) true)

/-- Two clients connect, the first one leaves and a third one gets its slot. -/
theorem listener_survives_three : ∃ result,
    execAll (checked FindsIdle serviceExec)
      (connecting 0 ++ [.thread 0 0] ++ connecting 1 ++ List.replicate 4 (.thread 0 0) ++ connecting 0)
        ([], listening) = some result ∧ Survives result.1 result.2 := by
  have executed : ((execAll (checked FindsIdle serviceExec)
      (connecting 0 ++ [.thread 0 0] ++ connecting 1 ++ List.replicate 4 (.thread 0 0) ++ connecting 0)
        ([], listening)).any fun (history, _) => history.all fun event => !event.2.fails) = true := by
    decide
  obtain ⟨result, executed, succeed⟩ := (Option.any_eq_true _ _).mp executed
  refine ⟨result, executed, listener_survives listening_started
    ((execAll_run .nil executed).mono ExecStep.guarded) fun event member => ?_⟩
  have success := List.all_eq_true.mp succeed event member
  exact (Bool.not_eq_true' _).mp success

/-- Twenty clients stay connected, and one more connects. -/
def overloading : List Mover :=
  (List.range maxClientNum).flatMap connecting ++
    List.replicate (maxClientNum + 1) (.listener (some 40) true)

theorem listener_survives_fails : ¬ ∀ (start p : Service) (history : History), Started start →
    Run (ExecStep serviceExec) start history p → (∀ event ∈ history, event.2.fails = false) →
      Survives history p := by
  intro claim
  have ended : ((execAll serviceExec overloading ([], listening)).any fun (history, p) =>
      (history.all fun event => !event.2.fails) && decide (p.listener = .returned)) = true := by
    decide +kernel
  obtain ⟨⟨history, p⟩, ran, ended⟩ := (Option.any_eq_true _ _).mp ended
  obtain ⟨succeed, returned⟩ := Bool.and_eq_true _ _ ▸ ended
  have survives := claim listening p history listening_started (execAll_run .nil ran)
    fun event member => (Bool.not_eq_true' _).mp (List.all_eq_true.mp succeed event member)
  exact survives.stays (of_decide_eq_true returned)

end DvsServer.Uart.Listener
