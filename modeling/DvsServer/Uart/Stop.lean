import DvsServer.Uart.Listener

/-!
# Stopping the UART service (`uart/src/uart_server.c`, `uart/src/uart_service.c`)

`uart_service_stop` closes the socket of every slot that is not idle and then joins
the slot's thread, which on its way out closes the slot's socket itself.  Each thread
knows its slot, and its `recv` may return at any time.
-/

namespace DvsServer.Uart.Stop

open DvsServer.Lib
open DvsServer.Uart.Listener (maxClientNum)

/-- Where a thread stands in `uartServiceThr`. -/
inductive ThreadPc where
  /-- in the command loop -/
  | serve
  /-- before the slot's socket is read -/
  | load
  /-- before the socket it has read is closed -/
  | close (socket : Int)
  /-- before the slot is marked idle -/
  | clear
  | exited
deriving DecidableEq

/-- Where a thread stands in `uart_service_stop`. -/
inductive StopPc where
  /-- the loop condition, and then the read of the slot's socket -/
  | look (i : Nat)
  /-- before `shutdown` -/
  | shutdown (i : Fin maxClientNum) (socket : Int)
  | close (i : Fin maxClientNum) (socket : Int)
  /-- before the slot is marked idle -/
  | clear (i : Fin maxClientNum)
  | join (i : Fin maxClientNum)
  /-- behind the loop -/
  | done
deriving DecidableEq

structure Service where
  sockets : Fin maxClientNum → Int
  threads : Fin maxClientNum → ThreadPc
  stop : StopPc

inductive Mover where
  | thread (i : Fin maxClientNum)
  | stop

inductive Act where
  | quiet
  /-- `uart_service_stop` has read the socket of a slot -/
  | looks (i : Fin maxClientNum) (socket : Int)
  | shuts (socket : Int)
  | closes (socket : Int)

abbrev History := List (Mover × Act)

namespace Service

def setSocket (p : Service) (i : Fin maxClientNum) (socket : Int) : Service :=
  { p with sockets := Function.update p.sockets i socket }

def setThread (p : Service) (i : Fin maxClientNum) (pc : ThreadPc) : Service :=
  { p with threads := Function.update p.threads i pc }

def goto (p : Service) (stop : StopPc) : Service := { p with stop }

end Service

def threadStep (p : Service) (i : Fin maxClientNum) : Option (Act × Service) :=
  match p.threads i with
  | .serve => some (.quiet, p.setThread i .load)
  | .load => some (.quiet, p.setThread i (.close (p.sockets i)))
  | .close socket => some (.closes socket, p.setThread i .clear)
  | .clear => some (.quiet, (p.setSocket i (-1)).setThread i .exited)
  | .exited => none

def stopStep (p : Service) : Option (Act × Service) :=
  match p.stop with
  | .look k =>
      match index? maxClientNum k with
      | none => some (.quiet, p.goto .done)
      | some i =>
          some (.looks i (p.sockets i),
            p.goto (if p.sockets i < 0 then .look (k + 1) else .shutdown i (p.sockets i)))
  | .shutdown i socket => some (.shuts socket, p.goto (.close i socket))
  | .close i socket => some (.closes socket, p.goto (.clear i))
  | .clear i => some (.quiet, (p.setSocket i (-1)).goto (.join i))
  | .join i => if p.threads i = .exited then some (.quiet, p.goto (.look (i + 1))) else none
  | .done => none

def stopExec (p : Service) : Mover → Option (Act × Service)
  | .thread i => threadStep p i
  | .stop => stopStep p

/-- The connections that are live when `uart_service_stop` is called. -/
structure Connections where
  socket : Fin maxClientNum → Option Int
  valid : ∀ i s, socket i = some s → 0 ≤ s
  distinct : ∀ i j s, socket i = some s → socket j = some s → i = j

structure Started (conns : Connections) (p : Service) : Prop where
  sockets : ∀ i, p.sockets i = (conns.socket i).getD (-1)
  threads : ∀ i, p.threads i = if (conns.socket i).isSome then .serve else .exited
  stop : p.stop = .look 0

/-! ## The property -/

/-- The values passed to `close`. -/
def closed : History → List Int
  | [] => []
  | (_, .closes socket) :: before => socket :: closed before
  | _ :: before => closed before

/-- Every accepted socket has been closed exactly once, and no `close` was called on `-1`. -/
def ClosedOnce (conns : Connections) (history : History) : Prop :=
  (∀ i socket, conns.socket i = some socket → (closed history).count socket = 1) ∧
    ∀ socket ∈ closed history, 0 ≤ socket

/-- `uart_service_stop` has found no slot in use. -/
def FoundIdle (history : History) : Prop :=
  ∀ mover i socket, (mover, .looks i socket) ∈ history → socket < 0

/-! ## What a step does -/

inductive ThreadSteps (p : Service) (i : Fin maxClientNum) : Act → Service → Prop where
  | leave (at_ : p.threads i = .serve) : ThreadSteps p i .quiet (p.setThread i .load)
  | load (at_ : p.threads i = .load) :
      ThreadSteps p i .quiet (p.setThread i (.close (p.sockets i)))
  | close {socket : Int} (at_ : p.threads i = .close socket) :
      ThreadSteps p i (.closes socket) (p.setThread i .clear)
  | clear (at_ : p.threads i = .clear) :
      ThreadSteps p i .quiet ((p.setSocket i (-1)).setThread i .exited)

inductive StopSteps (p : Service) : Act → Service → Prop where
  | ended {k : Nat} (at_ : p.stop = .look k) (last : maxClientNum ≤ k) :
      StopSteps p .quiet (p.goto .done)
  | idle {i : Fin maxClientNum} (at_ : p.stop = .look i) (free : p.sockets i < 0) :
      StopSteps p (.looks i (p.sockets i)) (p.goto (.look (i + 1)))
  | busy {i : Fin maxClientNum} (at_ : p.stop = .look i) (used : 0 ≤ p.sockets i) :
      StopSteps p (.looks i (p.sockets i)) (p.goto (.shutdown i (p.sockets i)))
  | shutdown {i : Fin maxClientNum} {socket : Int} (at_ : p.stop = .shutdown i socket) :
      StopSteps p (.shuts socket) (p.goto (.close i socket))
  | close {i : Fin maxClientNum} {socket : Int} (at_ : p.stop = .close i socket) :
      StopSteps p (.closes socket) (p.goto (.clear i))
  | clear {i : Fin maxClientNum} (at_ : p.stop = .clear i) :
      StopSteps p .quiet ((p.setSocket i (-1)).goto (.join i))
  | join {i : Fin maxClientNum} (at_ : p.stop = .join i) (left : p.threads i = .exited) :
      StopSteps p .quiet (p.goto (.look (i + 1)))

theorem threadStep_cases {p after : Service} {i : Fin maxClientNum} {act : Act}
    (step : threadStep p i = some (act, after)) : ThreadSteps p i act after := by
  unfold threadStep at step
  cases at_ : p.threads i with
  | serve =>
      rw [at_] at step
      cases Option.some.inj step
      exact .leave at_
  | load =>
      rw [at_] at step
      cases Option.some.inj step
      exact .load at_
  | close socket =>
      rw [at_] at step
      cases Option.some.inj step
      exact .close at_
  | clear =>
      rw [at_] at step
      cases Option.some.inj step
      exact .clear at_
  | exited =>
      rw [at_] at step
      cases step

theorem stopStep_cases {p after : Service} {act : Act} (step : stopStep p = some (act, after)) :
    StopSteps p act after := by
  unfold stopStep at step
  cases at_ : p.stop with
  | look k =>
      rw [at_] at step
      dsimp only at step
      cases slot : index? maxClientNum k with
      | none =>
          rw [slot] at step
          cases Option.some.inj step
          refine .ended at_ ?_
          by_contra inside
          have found : index? maxClientNum (k : Int) = some ⟨k, by omega⟩ := index?_val ⟨k, by omega⟩
          rw [slot] at found
          cases found
      | some i =>
          rw [slot] at step
          cases Int.ofNat.inj (index?_eq_some.mp slot)
          cases Option.some.inj step
          split
          · rename_i free
            exact .idle at_ free
          · rename_i used
            exact .busy at_ (Int.not_lt.mp used)
  | shutdown i socket =>
      rw [at_] at step
      cases Option.some.inj step
      exact .shutdown at_
  | close i socket =>
      rw [at_] at step
      cases Option.some.inj step
      exact .close at_
  | clear i =>
      rw [at_] at step
      cases Option.some.inj step
      exact .clear at_
  | join i =>
      rw [at_] at step
      dsimp only at step
      split at step
      · rename_i left
        cases Option.some.inj step
        exact .join at_ left
      · cases step
  | done =>
      rw [at_] at step
      cases step

/-! ## How far a slot has come -/

/-- What `uart_service_stop` has done to a slot. -/
inductive Stage where
  /-- it has not looked at the slot -/
  | waiting
  /-- it has found the slot idle -/
  | idle
  | found
  | closed
  | cleared
  | joined

namespace Stage

/-- The slot was found in use. -/
def busy : Stage → Bool
  | .waiting | .idle => false
  | _ => true

/-- The slot has been marked idle. -/
def marked : Stage → Bool
  | .cleared | .joined => true
  | _ => false

/-- How often the slot's socket has been closed. -/
def closes : Stage → Nat
  | .closed | .cleared | .joined => 1
  | _ => 0

/-- The loop has passed the slot. -/
def passed : Stage → Bool
  | .idle | .joined => true
  | _ => false

end Stage

theorem marked_busy {stage : Stage} (marked : stage.marked = true) : stage.busy = true := by
  cases stage with
  | cleared => rfl
  | joined => rfl
  | _ => cases marked

/-- The slot the loop is at. -/
def StopPc.slot : StopPc → Nat
  | .look k => k
  | .shutdown i _ | .close i _ | .clear i | .join i => i
  | .done => maxClientNum

/-- What has been done to that slot. -/
def StopPc.stage : StopPc → Stage
  | .look _ | .done => .waiting
  | .shutdown _ _ | .close _ _ => .found
  | .clear _ => .closed
  | .join _ => .cleared

/-- The stages of the slots as the loop counter and the history tell them. -/
structure Tracks (history : History) (stop : StopPc) (stage : Fin maxClientNum → Stage) : Prop where
  behind : ∀ i, i.val < stop.slot → (stage i).passed = true
  here : ∀ i, i.val = stop.slot → stage i = stop.stage
  ahead : ∀ i, stop.slot < i.val → stage i = .waiting
  found : ∀ i, (∃ mover socket, (mover, .looks i socket) ∈ history ∧ 0 ≤ socket) ↔ (stage i).busy = true

/-- The loop goes on with the slot it is at, or to the next one. -/
theorem Tracks.advance {history : History} {stop next : StopPc} {stage : Fin maxClientNum → Stage}
    {event : Mover × Act} {i : Fin maxClientNum} {now : Stage} (tracks : Tracks history stop stage)
    (at_ : stop.slot = i) (goes : next.slot = i ∧ now = next.stage ∨
      next.slot = i + 1 ∧ next.stage = .waiting ∧ now.passed = true)
    (found : (∃ socket, event.2 = .looks i socket ∧ 0 ≤ socket) ∨ (stage i).busy = true ↔ now.busy = true)
    (only : ∀ j socket, event.2 = .looks j socket → 0 ≤ socket → j = i) :
    Tracks (event :: history) next (Function.update stage i now) := by
  have other : ∀ j, j ≠ i → Function.update stage i now j = stage j := fun j differs =>
    Function.update_of_ne differs _ _
  constructor
  · intro j less
    by_cases same : j = i
    · subst same
      rw [Function.update_self]
      rcases goes with ⟨slot, _⟩ | ⟨_, _, passed⟩
      · omega
      · exact passed
    · rw [other j same]
      have differs : j.val ≠ i.val := fun equal => same (Fin.ext equal)
      apply tracks.behind
      rcases goes with ⟨slot, _⟩ | ⟨slot, _, _⟩ <;> omega
  · intro j equal
    by_cases same : j = i
    · subst same
      rw [Function.update_self]
      rcases goes with ⟨_, now_eq⟩ | ⟨slot, _, _⟩
      · exact now_eq
      · omega
    · rw [other j same]
      have differs : j.val ≠ i.val := fun equal => same (Fin.ext equal)
      rcases goes with ⟨slot, _⟩ | ⟨slot, waiting, _⟩
      · omega
      · rw [waiting]
        exact tracks.ahead j (by omega)
  · intro j more
    have differs : j ≠ i := by
      rintro rfl
      rcases goes with ⟨slot, _⟩ | ⟨slot, _, _⟩ <;> omega
    rw [other j differs]
    apply tracks.ahead
    rcases goes with ⟨slot, _⟩ | ⟨slot, _, _⟩ <;> omega
  · intro j
    by_cases same : j = i
    · subst same
      rw [Function.update_self, ← found, ← tracks.found j]
      constructor
      · rintro ⟨mover, socket, member, used⟩
        rcases List.mem_cons.mp member with now | before
        · exact .inl ⟨socket, congrArg Prod.snd now.symm, used⟩
        · exact .inr ⟨mover, socket, before, used⟩
      · rintro (⟨socket, now, used⟩ | ⟨mover, socket, before, used⟩)
        · refine ⟨event.1, socket, ?_, used⟩
          rw [← now]
          exact List.mem_cons_self
        · exact ⟨mover, socket, List.mem_cons_of_mem event before, used⟩
    · rw [other j same, ← tracks.found j]
      constructor
      · rintro ⟨mover, socket, member, used⟩
        rcases List.mem_cons.mp member with now | before
        · exact absurd (only j socket (congrArg Prod.snd now.symm) used) same
        · exact ⟨mover, socket, before, used⟩
      · rintro ⟨mover, socket, before, used⟩
        exact ⟨mover, socket, List.mem_cons_of_mem event before, used⟩

/-- A step that looks at no slot and leaves the loop where it is. -/
theorem Tracks.quiet {history : History} {stop next : StopPc} {stage : Fin maxClientNum → Stage}
    {event : Mover × Act} (tracks : Tracks history stop stage) (slot : next.slot = stop.slot)
    (same : next.stage = stop.stage) (silent : ∀ i socket, event.2 ≠ .looks i socket) :
    Tracks (event :: history) next stage := by
  refine ⟨?_, ?_, ?_, fun i => ?_⟩
  · rw [slot]
    exact tracks.behind
  · rw [slot, same]
    exact tracks.here
  · rw [slot]
    exact tracks.ahead
  rw [← tracks.found i]
  constructor
  · rintro ⟨mover, socket, member, used⟩
    rcases List.mem_cons.mp member with now | before
    · exact absurd (congrArg Prod.snd now.symm) (silent i socket)
    · exact ⟨mover, socket, before, used⟩
  · rintro ⟨mover, socket, before, used⟩
    exact ⟨mover, socket, List.mem_cons_of_mem event before, used⟩

/-! ## A slot in use -/

/-- The thread has not closed anything yet. -/
def ThreadPc.unclosed : ThreadPc → Bool
  | .serve | .load | .close _ => true
  | _ => false

/-- A slot that held `own` at the start: what it holds now, and how often `own` has
been closed. -/
structure SlotOk (own : Int) (stage : Stage) (pc : ThreadPc) (socket : Int) (closed : List Int) : Prop where
  held : pc ≠ .exited → stage.marked = false → socket = own
  idle : pc = .exited ∨ stage.marked = true → socket = -1
  read : ∀ socket, pc = .close socket → socket = own ∨ socket = -1 ∧ stage.marked = true
  pending : pc.unclosed = true → closed.count own = stage.closes
  past : pc.unclosed = false → closed.count own = 1 + stage.closes ∨ -1 ∈ closed ∧ stage.busy = true
  passed : stage.passed = true → pc = .exited

/-- Another socket is closed. -/
theorem SlotOk.other {own : Int} {stage : Stage} {pc : ThreadPc} {socket another : Int}
    {closed : List Int} (ok : SlotOk own stage pc socket closed) (differs : another ≠ own) :
    SlotOk own stage pc socket (another :: closed) := by
  have count : (another :: closed).count own = closed.count own := List.count_cons_of_ne differs
  refine ⟨ok.held, ok.idle, ok.read, fun still => ?_, fun left => ?_, ok.passed⟩
  · rw [count]
    exact ok.pending still
  · rw [count]
    exact (ok.past left).imp_right fun both => ⟨List.mem_cons_of_mem _ both.1, both.2⟩

/-- Where every slot has come to. -/
structure StopOk (conns : Connections) (history : History) (p : Service)
    (stage : Fin maxClientNum → Stage) : Prop where
  tracks : Tracks history p.stop stage
  used : ∀ i own, conns.socket i = some own →
    SlotOk own (stage i) (p.threads i) (p.sockets i) (closed history)
  unused : ∀ i, conns.socket i = none → p.sockets i = -1 ∧ p.threads i = .exited ∧ (stage i).busy = false
  socket : ∀ i socket, p.stop = .shutdown i socket ∨ p.stop = .close i socket →
    conns.socket i = some socket
  negative : ∀ socket ∈ closed history, 0 ≤ socket ∨ ∃ i, (stage i).busy = true

/-- What a step adds to the values passed to `close`, as far as slot `i` goes. -/
def Closes (own : Int) (stage : Stage) (history : History) (event : Mover × Act) : Prop :=
  closed (event :: history) = closed history ∨ ∃ socket,
    closed (event :: history) = socket :: closed history ∧
      (socket = own ∨ socket = -1 ∧ stage.busy = true)

/-- A step that concerns slot `i` alone. -/
theorem StopOk.at {conns : Connections} {history : History} {p after : Service}
    {stage : Fin maxClientNum → Stage} {event : Mover × Act} {i : Fin maxClientNum} {own : Int}
    {now : Stage} (ok : StopOk conns history p stage) (uses : conns.socket i = some own)
    (tracks : Tracks (event :: history) after.stop (Function.update stage i now))
    (threads : ∀ j, j ≠ i → after.threads j = p.threads j)
    (sockets : ∀ j, j ≠ i → after.sockets j = p.sockets j)
    (closes : Closes own now history event) (busy : (stage i).busy = true → now.busy = true)
    (socket : ∀ j socket, after.stop = .shutdown j socket ∨ after.stop = .close j socket →
      conns.socket j = some socket)
    (slot : SlotOk own now (after.threads i) (after.sockets i) (closed (event :: history))) :
    StopOk conns (event :: history) after (Function.update stage i now) := by
  refine ⟨tracks, fun j other uses' => ?_, fun j free => ?_, socket, fun value member => ?_⟩
  · by_cases same : j = i
    · subst same
      cases Option.some.inj (uses.symm.trans uses')
      rw [Function.update_self]
      exact slot
    · rw [Function.update_of_ne same, threads j same, sockets j same]
      have before := ok.used j other uses'
      rcases closes with none_ | ⟨value, one, which⟩
      · rw [none_]
        exact before
      · rw [one]
        apply before.other
        rcases which with rfl | ⟨rfl, _⟩
        · rintro rfl
          exact same (conns.distinct j i value uses' uses)
        · have valid := conns.valid j other uses'
          omega
  · have differs : j ≠ i := by
      rintro rfl
      rw [uses] at free
      cases free
    rw [Function.update_of_ne differs, threads j differs, sockets j differs]
    exact ok.unused j free
  · -- whoever has been found in use still counts as such
    have kept : (∃ j, (stage j).busy = true) → ∃ j, (Function.update stage i now j).busy = true := by
      rintro ⟨j, was⟩
      refine ⟨j, ?_⟩
      by_cases same : j = i
      · subst same
        rw [Function.update_self]
        exact busy was
      · rw [Function.update_of_ne same]
        exact was
    rcases closes with none_ | ⟨last, one, which⟩
    · rw [none_] at member
      exact (ok.negative value member).imp_right kept
    · rw [one] at member
      rcases List.mem_cons.mp member with rfl | before
      · rcases which with rfl | ⟨_, now_busy⟩
        · exact .inl (conns.valid i value uses)
        · refine .inr ⟨i, ?_⟩
          rw [Function.update_self]
          exact now_busy
      · exact (ok.negative value before).imp_right kept

/-- A thread that makes steps has a connection. -/
theorem StopOk.serves {conns : Connections} {history : History} {p : Service}
    {stage : Fin maxClientNum → Stage} {i : Fin maxClientNum} (ok : StopOk conns history p stage)
    (running : p.threads i ≠ .exited) : ∃ own, conns.socket i = some own := by
  cases uses : conns.socket i with
  | none => exact absurd (ok.unused i uses).2.1 running
  | some own => exact ⟨own, rfl⟩

theorem StopOk.thread_step {conns : Connections} {history : History} {p after : Service}
    {stage : Fin maxClientNum → Stage} {i : Fin maxClientNum} {act : Act}
    (ok : StopOk conns history p stage) (steps : ThreadSteps p i act after) :
    StopOk conns ((.thread i, act) :: history) after stage := by
  have self : ∀ {q : Service} {pc : ThreadPc}, (q.setThread i pc).threads i = pc :=
    Function.update_self ..
  have others : ∀ {q : Service} {pc : ThreadPc} (j : Fin maxClientNum), j ≠ i →
      (q.setThread i pc).threads j = q.threads j := fun j differs => Function.update_of_ne differs ..
  have running : p.threads i ≠ .exited := by
    cases steps with
    | leave at_ => rw [at_]; exact ThreadPc.noConfusion
    | load at_ => rw [at_]; exact ThreadPc.noConfusion
    | close at_ => rw [at_]; exact ThreadPc.noConfusion
    | clear at_ => rw [at_]; exact ThreadPc.noConfusion
  obtain ⟨own, uses⟩ := ok.serves running
  have slot := ok.used i own uses
  have keep : Function.update stage i (stage i) = stage := Function.update_eq_self i stage
  rw [← keep]
  have passed : (stage i).passed = false := by
    cases passed : (stage i).passed with
    | false => rfl
    | true => exact absurd (slot.passed passed) running
  have tracks : ∀ {act : Act}, (∀ j socket, act ≠ .looks j socket) →
      Tracks ((.thread i, act) :: history) p.stop (Function.update stage i (stage i)) := by
    intro act silent
    rw [keep]
    exact ok.tracks.quiet rfl rfl silent
  cases steps with
  | leave at_ =>
      rw [at_] at slot
      refine ok.at uses (tracks nofun) others (fun _ _ => rfl) (.inl rfl) id ok.socket ?_
      rw [self]
      exact ⟨fun _ => slot.held nofun, fun either => slot.idle (either.imp_left nofun), nofun,
        fun _ => slot.pending rfl, nofun, fun here => absurd (slot.passed here) nofun⟩
  | load at_ =>
      rw [at_] at slot
      refine ok.at uses (tracks nofun) others (fun _ _ => rfl) (.inl rfl) id ok.socket ?_
      rw [self]
      refine ⟨fun _ => slot.held nofun, fun either => slot.idle (either.imp_left nofun), ?_,
        fun _ => slot.pending rfl, nofun, fun here => absurd (slot.passed here) nofun⟩
      intro socket same
      cases same
      cases marked : (stage i).marked with
      | false => exact .inl (slot.held nofun marked)
      | true => exact .inr ⟨slot.idle (.inr marked), rfl⟩
  | @close socket at_ =>
      rw [at_] at slot
      have which : socket = own ∨ socket = -1 ∧ (stage i).busy = true :=
        (slot.read socket rfl).imp_right fun both => ⟨both.1, marked_busy both.2⟩
      refine ok.at uses (tracks nofun) others (fun _ _ => rfl) (.inr ⟨socket, rfl, which⟩) id ok.socket ?_
      rw [self]
      refine ⟨fun _ => slot.held nofun, fun either => slot.idle (either.imp_left nofun), nofun, nofun,
        fun _ => ?_, fun here => absurd (slot.passed here) nofun⟩
      rw [closed]
      rcases which with rfl | ⟨rfl, busy⟩
      · rw [List.count_cons_self, slot.pending rfl]
        exact .inl (Nat.add_comm _ _)
      · exact .inr ⟨List.mem_cons_self, busy⟩
  | clear at_ =>
      rw [at_] at slot
      refine ok.at uses (tracks nofun) others (fun j differs => ?_) (.inl rfl) id ok.socket ?_
      · exact Function.update_of_ne differs _ _
      · rw [self]
        refine ⟨fun left => absurd rfl left, fun _ => ?_, nofun, nofun, fun _ => slot.past rfl, fun _ => rfl⟩
        exact Function.update_self ..

/-- A slot that was found in use had a connection. -/
theorem StopOk.found {conns : Connections} {history : History} {p : Service}
    {stage : Fin maxClientNum → Stage} {i : Fin maxClientNum} (ok : StopOk conns history p stage)
    (busy : (stage i).busy = true) : ∃ own, conns.socket i = some own := by
  cases uses : conns.socket i with
  | none =>
      have free := (ok.unused i uses).2.2
      rw [busy] at free
      cases free
  | some own => exact ⟨own, rfl⟩

/-- `uart_service_stop` finds a slot idle: its thread has left. -/
theorem StopOk.idle_step {conns : Connections} {history : History} {p : Service}
    {stage : Fin maxClientNum → Stage} {i : Fin maxClientNum} (ok : StopOk conns history p stage)
    (at_ : p.stop = .look i) (free : p.sockets i < 0) :
    StopOk conns ((.stop, .looks i (p.sockets i)) :: history) (p.goto (.look (i + 1)))
      (Function.update stage i .idle) := by
  have here : stage i = .waiting := by
    rw [ok.tracks.here i (by rw [at_]; rfl), at_]
    rfl
  have tracks : Tracks ((.stop, .looks i (p.sockets i)) :: history) (.look (i + 1))
      (Function.update stage i .idle) := by
    refine ok.tracks.advance (by rw [at_]; rfl) (.inr ⟨rfl, rfl, rfl⟩) ⟨?_, nofun⟩ ?_
    · rintro (⟨socket, same, used⟩ | busy)
      · cases same
        omega
      · rw [here] at busy
        cases busy
    · intro j socket same used
      cases same
      omega
  cases uses : conns.socket i with
  | none =>
      refine ⟨tracks, fun j own uses' => ?_, fun j none_ => ?_, nofun, fun socket member => ?_⟩
      · have differs : j ≠ i := by
          rintro rfl
          rw [uses] at uses'
          cases uses'
        rw [Function.update_of_ne differs]
        exact ok.used j own uses'
      · obtain ⟨socket, left, unseen⟩ := ok.unused j none_
        refine ⟨socket, left, ?_⟩
        by_cases same : j = i
        · rw [same, Function.update_self]
          rfl
        · rw [Function.update_of_ne same]
          exact unseen
      · refine (ok.negative socket member).imp_right fun ⟨j, busy⟩ => ⟨j, ?_⟩
        have differs : j ≠ i := by
          rintro rfl
          rw [here] at busy
          cases busy
        rw [Function.update_of_ne differs]
        exact busy
  | some own =>
      have slot := ok.used i own uses
      rw [here] at slot
      have left : p.threads i = .exited := by
        by_contra running
        have held := slot.held running rfl
        have valid := conns.valid i own uses
        omega
      refine ok.at uses tracks (fun _ _ => rfl) (fun _ _ => rfl) (.inl rfl) (fun busy => ?_) nofun ?_
      · rw [here] at busy
        cases busy
      · refine ⟨fun running => absurd left running, fun _ => slot.idle (.inl left), ?_, ?_, fun closed_ => ?_,
          fun _ => left⟩
        · intro socket same
          rw [Service.goto, left] at same
          cases same
        · intro still
          rw [Service.goto, left] at still
          cases still
        · exact (slot.past closed_).imp_right fun both => ⟨both.1, both.2⟩

theorem StopOk.busy_step {conns : Connections} {history : History} {p : Service}
    {stage : Fin maxClientNum → Stage} {i : Fin maxClientNum} (ok : StopOk conns history p stage)
    (at_ : p.stop = .look i) (used : 0 ≤ p.sockets i) :
    StopOk conns ((.stop, .looks i (p.sockets i)) :: history) (p.goto (.shutdown i (p.sockets i)))
      (Function.update stage i .found) := by
  have here : stage i = .waiting := by
    rw [ok.tracks.here i (by rw [at_]; rfl), at_]
    rfl
  cases uses : conns.socket i with
  | none =>
      have free := (ok.unused i uses).1
      omega
  | some own =>
      have slot := ok.used i own uses
      rw [here] at slot
      have running : p.threads i ≠ .exited := by
        intro left
        have idle := slot.idle (.inl left)
        omega
      have held := slot.held running rfl
      refine ok.at uses ?_ (fun _ _ => rfl) (fun _ _ => rfl) (.inl rfl) (fun _ => rfl) ?_ ?_
      · refine ok.tracks.advance (by rw [at_]; rfl) (.inl ⟨rfl, rfl⟩)
          ⟨fun _ => rfl, fun _ => .inl ⟨_, rfl, used⟩⟩ ?_
        intro j socket same _
        cases same
        rfl
      · intro j socket either
        rcases either with same | same
        · cases same
          rw [held]
          exact uses
        · cases same
      · refine ⟨slot.held, slot.idle, slot.read, slot.pending, fun left => ?_, nofun⟩
        exact (slot.past left).imp_right fun both => ⟨both.1, rfl⟩

theorem StopOk.close_step {conns : Connections} {history : History} {p : Service}
    {stage : Fin maxClientNum → Stage} {i : Fin maxClientNum} {socket : Int}
    (ok : StopOk conns history p stage) (at_ : p.stop = .close i socket) :
    StopOk conns ((.stop, .closes socket) :: history) (p.goto (.clear i))
      (Function.update stage i .closed) := by
  have here : stage i = .found := by
    rw [ok.tracks.here i (by rw [at_]; rfl), at_]
    rfl
  have uses := ok.socket i socket (.inr at_)
  have slot := ok.used i socket uses
  rw [here] at slot
  refine ok.at uses ?_ (fun _ _ => rfl) (fun _ _ => rfl) (.inr ⟨socket, rfl, .inl rfl⟩) (fun _ => rfl) nofun ?_
  · refine ok.tracks.advance (by rw [at_]; rfl) (.inl ⟨rfl, rfl⟩) ⟨fun _ => rfl, fun _ => .inr ?_⟩ nofun
    rw [here]
    rfl
  · refine ⟨slot.held, slot.idle, slot.read, fun still => ?_, fun left => ?_, nofun⟩
    · rw [closed, List.count_cons_self, slot.pending still]
      rfl
    · rw [closed, List.count_cons_self]
      rcases slot.past left with once | ⟨negative, _⟩
      · rw [once]
        exact .inl rfl
      · exact .inr ⟨List.mem_cons_of_mem _ negative, rfl⟩

theorem StopOk.clear_step {conns : Connections} {history : History} {p : Service}
    {stage : Fin maxClientNum → Stage} {i : Fin maxClientNum} (ok : StopOk conns history p stage)
    (at_ : p.stop = .clear i) :
    StopOk conns ((.stop, .quiet) :: history) ((p.setSocket i (-1)).goto (.join i))
      (Function.update stage i .cleared) := by
  have here : stage i = .closed := by
    rw [ok.tracks.here i (by rw [at_]; rfl), at_]
    rfl
  obtain ⟨own, uses⟩ := ok.found (by rw [here]; rfl)
  have slot := ok.used i own uses
  rw [here] at slot
  refine ok.at uses ?_ (fun _ _ => rfl) (fun j differs => ?_) (.inl rfl) (fun _ => rfl) nofun ?_
  · refine ok.tracks.advance (by rw [at_]; rfl) (.inl ⟨rfl, rfl⟩) ⟨fun _ => rfl, fun _ => .inr ?_⟩ nofun
    rw [here]
    rfl
  · exact Function.update_of_ne differs _ _
  · refine ⟨nofun, fun _ => ?_, fun socket same => ?_, slot.pending, slot.past, nofun⟩
    · exact Function.update_self ..
    · exact (slot.read socket same).imp_right fun both => ⟨both.1, rfl⟩

theorem StopOk.join_step {conns : Connections} {history : History} {p : Service}
    {stage : Fin maxClientNum → Stage} {i : Fin maxClientNum} (ok : StopOk conns history p stage)
    (at_ : p.stop = .join i) (left : p.threads i = .exited) :
    StopOk conns ((.stop, .quiet) :: history) (p.goto (.look (i + 1)))
      (Function.update stage i .joined) := by
  have here : stage i = .cleared := by
    rw [ok.tracks.here i (by rw [at_]; rfl), at_]
    rfl
  obtain ⟨own, uses⟩ := ok.found (by rw [here]; rfl)
  have slot := ok.used i own uses
  rw [here] at slot
  refine ok.at uses ?_ (fun _ _ => rfl) (fun _ _ => rfl) (.inl rfl) (fun _ => rfl) nofun ?_
  · refine ok.tracks.advance (by rw [at_]; rfl) (.inr ⟨rfl, rfl, rfl⟩) ⟨fun _ => rfl, fun _ => .inr ?_⟩ nofun
    rw [here]
    rfl
  · exact ⟨nofun, slot.idle, slot.read, slot.pending, slot.past, fun _ => left⟩

theorem StopOk.stop_step {conns : Connections} {history : History} {p after : Service}
    {stage : Fin maxClientNum → Stage} {act : Act} (ok : StopOk conns history p stage)
    (steps : StopSteps p act after) :
    ∃ next, StopOk conns ((.stop, act) :: history) after next := by
  cases steps with
  | @ended k at_ last =>
      have tracks := ok.tracks
      rw [at_] at tracks
      have stays : Tracks ((.stop, .quiet) :: history) (.look k) stage := tracks.quiet rfl rfl nofun
      have ended : Tracks ((.stop, .quiet) :: history) .done stage := by
        refine ⟨fun i _ => ?_, fun i equal => ?_, fun i more => ?_, ?_⟩
        · have below := i.isLt
          exact tracks.behind i (Nat.lt_of_lt_of_le below last)
        · exact absurd equal (Nat.ne_of_lt i.isLt)
        · exact absurd more (Nat.not_lt.mpr (Nat.le_of_lt i.isLt))
        · exact stays.found
      refine ⟨stage, ended, ok.used, ok.unused, fun i socket either => ?_, ok.negative⟩
      rcases either with same | same <;> cases same
  | @idle i at_ free => exact ⟨_, ok.idle_step at_ free⟩
  | @busy i at_ used => exact ⟨_, ok.busy_step at_ used⟩
  | @shutdown i socket at_ =>
      refine ⟨stage, ?_, ok.used, ok.unused, fun j other either => ?_, ok.negative⟩
      · refine ok.tracks.quiet ?_ ?_ nofun
        · rw [at_]
          rfl
        · rw [at_]
          rfl
      · rcases either with same | same
        · cases same
        · cases same
          exact ok.socket i socket (.inl at_)
  | @close i socket at_ => exact ⟨_, ok.close_step at_⟩
  | @clear i at_ => exact ⟨_, ok.clear_step at_⟩
  | @join i at_ left => exact ⟨_, ok.join_step at_ left⟩

/-! ## Every run -/

theorem Started.stopOk {conns : Connections} {p : Service} (started : Started conns p) :
    StopOk conns [] p fun _ => .waiting := by
  have stop := started.stop
  refine ⟨⟨fun i less => ?_, fun i _ => ?_, fun _ _ => rfl, fun i => ?_⟩, fun i own uses => ?_,
    fun i free => ?_, fun i socket either => ?_, nofun⟩
  · rw [stop] at less
    exact absurd less (Nat.not_lt_zero _)
  · rw [stop]
    rfl
  · constructor
    · rintro ⟨_, _, member, _⟩
      cases member
    · nofun
  · have socket := started.sockets i
    have thread := started.threads i
    rw [uses] at socket thread
    rw [thread]
    exact ⟨fun _ _ => socket, fun either => either.elim nofun nofun, nofun, fun _ => rfl, nofun, nofun⟩
  · have socket := started.sockets i
    have thread := started.threads i
    rw [free] at socket thread
    exact ⟨socket, thread, rfl⟩
  · rw [stop] at either
    rcases either with same | same <;> cases same

theorem run_stopOk {conns : Connections} {start p : Service} {history : History}
    (started : Started conns start) (run : Run (ExecStep stopExec) start history p) :
    ∃ stage, StopOk conns history p stage := by
  apply run.invariant fun history p => ∃ stage, StopOk conns history p stage
  · exact ⟨_, started.stopOk⟩
  · rintro history p ⟨mover, act⟩ after _ ⟨stage, ok⟩ step
    cases mover with
    | thread i => exact ⟨stage, ok.thread_step (threadStep_cases step)⟩
    | stop => exact ok.stop_step (stopStep_cases step)

/-- A slot that was found in use: its socket is closed twice, or `-1` is closed. -/
theorem StopOk.not_once {conns : Connections} {history : History} {p : Service}
    {stage : Fin maxClientNum → Stage} {i : Fin maxClientNum} (ok : StopOk conns history p stage)
    (done : p.stop = .done) (busy : (stage i).busy = true) : ¬ ClosedOnce conns history := by
  rintro ⟨once, valid⟩
  obtain ⟨own, uses⟩ := ok.found busy
  have slot := ok.used i own uses
  have passed : (stage i).passed = true := ok.tracks.behind i (by rw [done]; exact i.isLt)
  have joined : stage i = .joined := by
    cases stage_eq : stage i with
    | joined => rfl
    | idle => rw [stage_eq] at busy; cases busy
    | _ => rw [stage_eq] at passed; cases passed
  have left := slot.passed passed
  rw [joined, left] at slot
  rcases slot.past rfl with twice | ⟨negative, _⟩
  · rw [once i own uses] at twice
    cases twice
  · have bad := valid (-1) negative
    omega

/-- When `uart_service_stop` has finished, every accepted socket has been closed exactly
once, and `-1` never, exactly if it has found every slot idle. -/
theorem closed_once_iff_found_idle {conns : Connections} {start p : Service} {history : History}
    (started : Started conns start) (run : Run (ExecStep stopExec) start history p)
    (done : p.stop = .done) : ClosedOnce conns history ↔ FoundIdle history := by
  obtain ⟨stage, ok⟩ := run_stopOk started run
  constructor
  · intro once mover i socket looked
    by_contra used
    have busy := (ok.tracks.found i).mp ⟨mover, socket, looked, Int.not_lt.mp used⟩
    exact ok.not_once done busy once
  · intro idle
    have unseen : ∀ i, (stage i).busy = false := by
      intro i
      cases busy : (stage i).busy with
      | false => rfl
      | true =>
          obtain ⟨mover, socket, looked, used⟩ := (ok.tracks.found i).mpr busy
          have free := idle mover i socket looked
          omega
    refine ⟨fun i own uses => ?_, fun socket member => ?_⟩
    · have slot := ok.used i own uses
      have passed : (stage i).passed = true := ok.tracks.behind i (by rw [done]; exact i.isLt)
      have found_idle : stage i = .idle := by
        have none_ := unseen i
        cases stage_eq : stage i with
        | idle => rfl
        | joined => rw [stage_eq] at none_; cases none_
        | _ => rw [stage_eq] at passed; cases passed
      have left := slot.passed passed
      rw [found_idle, left] at slot
      rcases slot.past rfl with once | ⟨_, busy⟩
      · exact once
      · cases busy
    · rcases ok.negative socket member with valid | ⟨i, busy⟩
      · exact valid
      · rw [unseen i] at busy
        cases busy

/-- Descriptor 5 in the first slot. -/
def firstSlot (i : Fin maxClientNum) : Option Int := if i.val = 0 then some 5 else none

theorem firstSlot_eq {i : Fin maxClientNum} {socket : Int} (uses : firstSlot i = some socket) :
    i.val = 0 ∧ socket = 5 := by
  unfold firstSlot at uses
  split at uses
  · rename_i first
    cases uses
    exact ⟨first, rfl⟩
  · cases uses

theorem firstSlot_valid (i : Fin maxClientNum) (socket : Int) (uses : firstSlot i = some socket) :
    0 ≤ socket := by
  have same := (firstSlot_eq uses).2
  omega

theorem firstSlot_distinct (i j : Fin maxClientNum) (socket : Int) (uses : firstSlot i = some socket)
    (uses' : firstSlot j = some socket) : i = j :=
  Fin.ext ((firstSlot_eq uses).1.trans (firstSlot_eq uses').1.symm)

/-- One connection. -/
def oneConnection : Connections := ⟨firstSlot, firstSlot_valid, firstSlot_distinct⟩

/-- The service with these connections when `uart_service_stop` is called. -/
def serving (conns : Connections) : Service where
  sockets i := (conns.socket i).getD (-1)
  threads i := if (conns.socket i).isSome then .serve else .exited
  stop := .look 0

theorem serving_started (conns : Connections) : Started conns (serving conns) :=
  ⟨fun _ => rfl, fun _ => rfl, rfl⟩

/-- The client hangs up, its thread leaves, and then the service is stopped. -/
theorem closed_once_iff_found_idle_before : ∃ result,
    execAll stopExec (List.replicate 4 (.thread 0) ++ List.replicate 21 .stop)
      ([], serving oneConnection) = some result ∧
        (ClosedOnce oneConnection result.1 ↔ FoundIdle result.1) := by
  have executed : ((execAll stopExec (List.replicate 4 (.thread 0) ++ List.replicate 21 .stop)
      ([], serving oneConnection)).any fun (_, p) => decide (p.stop = .done)) = true := by
    decide
  obtain ⟨result, executed, done⟩ := (Option.any_eq_true _ _).mp executed
  exact ⟨result, executed, closed_once_iff_found_idle (serving_started oneConnection)
    (execAll_run .nil executed) (of_decide_eq_true done)⟩

/-- `uart_service_stop` closes the socket of a live connection and marks the slot idle;
then the thread calls `close` on `-1`. -/
theorem closed_once_fails : ¬ ∀ (conns : Connections) (start p : Service) (history : History),
    Started conns start → Run (ExecStep stopExec) start history p → p.stop = .done →
      ClosedOnce conns history := by
  intro claim
  have closes : ((execAll stopExec (List.replicate 4 .stop ++ List.replicate 4 (.thread 0) ++
      List.replicate 21 .stop) ([], serving oneConnection)).any fun (history, p) =>
        decide (p.stop = .done) && decide (-1 ∈ closed history)) = true := by
    decide
  obtain ⟨⟨history, p⟩, ran, closes⟩ := (Option.any_eq_true _ _).mp closes
  obtain ⟨done, negative⟩ := Bool.and_eq_true _ _ ▸ closes
  have once := claim oneConnection (serving oneConnection) p history (serving_started _)
    (execAll_run .nil ran) (of_decide_eq_true done)
  exact absurd (once.2 (-1) (of_decide_eq_true negative)) (by decide)

end DvsServer.Uart.Stop
