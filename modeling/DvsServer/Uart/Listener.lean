import DvsServer.Lib.Run
import DvsServer.Lib.SlotTable

/-!
# The UART listener and its service threads (`uart/src/uart_server.c`,
`uart/src/uart_service.c`)

The listener stores an accepted socket in the first idle slot and creates a thread
that gets the address of the listener's variable `clientNo`.  The thread reads its
slot number there, serves the slot's socket, closes it and marks the slot idle.
-/

namespace DvsServer.Uart.Listener

open DvsServer.Lib

abbrev maxClientNum : Nat := 20

/-- Where a thread stands in the loop of `uart_service_start`. -/
inductive ListenPc where
  | accept
  /-- the loop over the slots -/
  | scan (clientSocket : Int) (i : Fin maxClientNum)
  /-- before `clientNo` is written -/
  | number (clientSocket : Int) (i : Fin maxClientNum)
  /-- before the socket is stored -/
  | store (clientSocket : Int)
  /-- before `pthread_create` -/
  | create (clientSocket : Int)
  | returned
deriving DecidableEq

/-- Where a thread stands in `uartServiceThr`. -/
inductive ThreadPc where
  /-- before the argument is read -/
  | start
  /-- before the socket is read -/
  | load (clientNo : Int)
  /-- in the command loop -/
  | serve (clientNo : Fin maxClientNum) (socketfd : Int)
  /-- before the slot's socket is closed -/
  | close (clientNo : Fin maxClientNum)
  /-- before the slot is marked idle -/
  | clear (clientNo : Fin maxClientNum)
  | exited
deriving DecidableEq

structure Service where
  /-- `g_serviceMgr.clients[i].socket` -/
  sockets : Fin maxClientNum → Int
  /-- the listener's variable -/
  clientNo : Int
  listener : ListenPc
  /-- the number of threads ever created -/
  threadCount : Nat
  threads : Nat → ThreadPc
  /-- the descriptors of accepted connections that have not been closed -/
  opened : List Int

inductive Mover where
  /-- the listener, with the results `accept` and `pthread_create` give -/
  | listener (accepted : Option Int) (created : Bool)
  /-- a thread, with what a variable that is gone may hold -/
  | thread (k : Nat) (gone : Int)

inductive Act where
  | quiet
  /-- a connection is accepted; the flag tells whether a slot is idle then -/
  | accepts (clientSocket : Int) (idle : Bool)
  /-- `accept` has failed -/
  | stops
  /-- no slot is idle -/
  | refuses (clientSocket : Int)
  | numbers (i : Fin maxClientNum)
  | stores (i : Fin maxClientNum) (clientSocket : Int)
  /-- thread `k` is created for an accepted connection -/
  | creates (k : Nat) (clientSocket : Int)
  | createFails
  | reads (k : Nat) (clientNo : Int)
  | loads (k : Nat) (socketfd : Int)
  | closes (socket : Int)

abbrev History := List (Mover × Act)

namespace Service

def goto (p : Service) (listener : ListenPc) : Service := { p with listener }

def setSocket (p : Service) (i : Fin maxClientNum) (socket : Int) : Service :=
  { p with sockets := Function.update p.sockets i socket }

def setThread (p : Service) (k : Nat) (pc : ThreadPc) : Service :=
  { p with threads := Function.update p.threads k pc }

/-- Some slot is idle. -/
def idle (p : Service) : Bool := decide (∃ i, p.sockets i < 0)

/-- What a thread finds under its argument. -/
def argument (p : Service) (gone : Int) : Int :=
  if p.listener = .returned then gone else p.clientNo

/-- The accepted connection the listener is busy with. -/
def inHand (p : Service) : Option Int :=
  match p.listener with
  | .scan clientSocket _ | .number clientSocket _ | .store clientSocket | .create clientSocket =>
      some clientSocket
  | _ => none

end Service

/-- One step of `uart_service_start`; `accept` returns a descriptor that is not in use. -/
def listenStep (p : Service) (accepted : Option Int) (created : Bool) : Option (Act × Service) :=
  match p.listener with
  | .accept =>
      match accepted with
      | none => some (.stops, p.goto .returned)
      | some clientSocket =>
          if 0 ≤ clientSocket ∧ clientSocket ∉ p.opened then
            some (.accepts clientSocket p.idle,
              { p with listener := .scan clientSocket 0, opened := clientSocket :: p.opened })
          else none
  | .scan clientSocket i =>
      if p.sockets i < 0 then some (.quiet, p.goto (.number clientSocket i))
      else if more : i.val + 1 < maxClientNum then
        some (.quiet, p.goto (.scan clientSocket ⟨i.val + 1, more⟩))
      else some (.refuses clientSocket, p.goto .returned)
  | .number clientSocket i =>
      some (.numbers i, { p with clientNo := i, listener := .store clientSocket })
  | .store clientSocket =>
      match index? maxClientNum p.clientNo with
      | none => none
      | some i => some (.stores i clientSocket, (p.setSocket i clientSocket).goto (.create clientSocket))
  | .create clientSocket =>
      if created then
        some (.creates p.threadCount clientSocket,
          { p.setThread p.threadCount .start with listener := .accept, threadCount := p.threadCount + 1 })
      else some (.createFails, p.goto .returned)
  | .returned => none

/-- One step of `uartServiceThr`; the command loop ends at some time. -/
def threadStep (p : Service) (k : Nat) (gone : Int) : Option (Act × Service) :=
  match p.threads k with
  | .start => some (.reads k (p.argument gone), p.setThread k (.load (p.argument gone)))
  | .load clientNo =>
      match index? maxClientNum clientNo with
      | none => none
      | some i => some (.loads k (p.sockets i), p.setThread k (.serve i (p.sockets i)))
  | .serve i _ => some (.quiet, p.setThread k (.close i))
  | .close i =>
      some (.closes (p.sockets i), { p.setThread k (.clear i) with opened := p.opened.erase (p.sockets i) })
  | .clear i => some (.quiet, (p.setSocket i (-1)).setThread k .exited)
  | .exited => none

def serviceExec (p : Service) : Mover → Option (Act × Service)
  | .listener accepted created => listenStep p accepted created
  | .thread k gone => if k < p.threadCount then threadStep p k gone else none

/-- After `uart_service_init`, when the listener has begun to listen. -/
structure Started (p : Service) : Prop where
  sockets : ∀ i, p.sockets i = -1
  listener : p.listener = .accept
  threadCount : p.threadCount = 0
  opened : p.opened = []

/-! ## What a step does -/

@[simp] theorem setThread_self (p : Service) (k : Nat) (pc : ThreadPc) :
    (p.setThread k pc).threads k = pc :=
  Function.update_self ..

theorem setThread_ne {p : Service} {j k : Nat} (other : j ≠ k) (pc : ThreadPc) :
    (p.setThread k pc).threads j = p.threads j :=
  Function.update_of_ne other ..

@[simp] theorem setSocket_self (p : Service) (i : Fin maxClientNum) (socket : Int) :
    (p.setSocket i socket).sockets i = socket :=
  Function.update_self ..

theorem setSocket_ne {p : Service} {i j : Fin maxClientNum} (other : j ≠ i) (socket : Int) :
    (p.setSocket i socket).sockets j = p.sockets j :=
  Function.update_of_ne other ..

/-- The steps of the listener. -/
inductive Listens (p : Service) : Act → Service → Prop where
  | stop (at_ : p.listener = .accept) : Listens p .stops (p.goto .returned)
  | accept {clientSocket : Int} (at_ : p.listener = .accept) (valid : 0 ≤ clientSocket)
      (new : clientSocket ∉ p.opened) :
      Listens p (.accepts clientSocket p.idle)
        { p with listener := .scan clientSocket 0, opened := clientSocket :: p.opened }
  | found {clientSocket : Int} {i : Fin maxClientNum} (at_ : p.listener = .scan clientSocket i)
      (idle : p.sockets i < 0) : Listens p .quiet (p.goto (.number clientSocket i))
  | next {clientSocket : Int} {i j : Fin maxClientNum} (at_ : p.listener = .scan clientSocket i)
      (busy : ¬ p.sockets i < 0) (after : j.val = i.val + 1) :
      Listens p .quiet (p.goto (.scan clientSocket j))
  | refuse {clientSocket : Int} {i : Fin maxClientNum} (at_ : p.listener = .scan clientSocket i)
      (busy : ¬ p.sockets i < 0) (last : i.val + 1 = maxClientNum) :
      Listens p (.refuses clientSocket) (p.goto .returned)
  | number {clientSocket : Int} {i : Fin maxClientNum} (at_ : p.listener = .number clientSocket i) :
      Listens p (.numbers i) { p with clientNo := i, listener := .store clientSocket }
  | store {clientSocket : Int} {i : Fin maxClientNum} (at_ : p.listener = .store clientSocket)
      (slot : p.clientNo = i) :
      Listens p (.stores i clientSocket) ((p.setSocket i clientSocket).goto (.create clientSocket))
  | create {clientSocket : Int} (at_ : p.listener = .create clientSocket) :
      Listens p (.creates p.threadCount clientSocket)
        { p.setThread p.threadCount .start with listener := .accept, threadCount := p.threadCount + 1 }
  | fail {clientSocket : Int} (at_ : p.listener = .create clientSocket) :
      Listens p .createFails (p.goto .returned)

theorem listenStep_cases {p after : Service} {accepted : Option Int} {created : Bool} {act : Act}
    (step : listenStep p accepted created = some (act, after)) : Listens p act after := by
  unfold listenStep at step
  cases at_ : p.listener with
  | accept =>
      rw [at_] at step
      cases accepted with
      | none =>
          cases Option.some.inj step
          exact .stop at_
      | some clientSocket =>
          dsimp only at step
          split at step
          · rename_i fresh
            cases Option.some.inj step
            exact .accept at_ fresh.1 fresh.2
          · cases step
  | scan clientSocket i =>
      rw [at_] at step
      dsimp only at step
      split at step
      · rename_i idle
        cases Option.some.inj step
        exact .found at_ idle
      · rename_i busy
        split at step
        · cases Option.some.inj step
          exact .next at_ busy rfl
        · rename_i ended
          cases Option.some.inj step
          exact .refuse at_ busy (by omega)
  | number clientSocket i =>
      rw [at_] at step
      cases Option.some.inj step
      exact .number at_
  | store clientSocket =>
      rw [at_] at step
      dsimp only at step
      cases slot : index? maxClientNum p.clientNo with
      | none =>
          rw [slot] at step
          cases step
      | some i =>
          rw [slot] at step
          cases Option.some.inj step
          exact .store at_ (index?_eq_some.mp slot)
  | create clientSocket =>
      rw [at_] at step
      cases created with
      | true =>
          cases Option.some.inj step
          exact .create at_
      | false =>
          cases Option.some.inj step
          exact .fail at_
  | returned =>
      rw [at_] at step
      cases step

/-- The steps of a service thread. -/
inductive Serves (p : Service) (k : Nat) (gone : Int) : Act → Service → Prop where
  | read (at_ : p.threads k = .start) :
      Serves p k gone (.reads k (p.argument gone)) (p.setThread k (.load (p.argument gone)))
  | load {clientNo : Int} {i : Fin maxClientNum} (at_ : p.threads k = .load clientNo)
      (slot : clientNo = i) :
      Serves p k gone (.loads k (p.sockets i)) (p.setThread k (.serve i (p.sockets i)))
  | leave {i : Fin maxClientNum} {socketfd : Int} (at_ : p.threads k = .serve i socketfd) :
      Serves p k gone .quiet (p.setThread k (.close i))
  | close {i : Fin maxClientNum} (at_ : p.threads k = .close i) :
      Serves p k gone (.closes (p.sockets i))
        { p.setThread k (.clear i) with opened := p.opened.erase (p.sockets i) }
  | clear {i : Fin maxClientNum} (at_ : p.threads k = .clear i) :
      Serves p k gone .quiet ((p.setSocket i (-1)).setThread k .exited)

theorem threadStep_cases {p after : Service} {k : Nat} {gone : Int} {act : Act}
    (step : threadStep p k gone = some (act, after)) : Serves p k gone act after := by
  unfold threadStep at step
  cases at_ : p.threads k with
  | start =>
      rw [at_] at step
      cases Option.some.inj step
      exact .read at_
  | load clientNo =>
      rw [at_] at step
      dsimp only at step
      cases slot : index? maxClientNum clientNo with
      | none =>
          rw [slot] at step
          cases step
      | some i =>
          rw [slot] at step
          cases Option.some.inj step
          exact .load at_ (index?_eq_some.mp slot)
  | serve i socketfd =>
      rw [at_] at step
      cases Option.some.inj step
      exact .leave at_
  | close i =>
      rw [at_] at step
      cases Option.some.inj step
      exact .close at_
  | clear i =>
      rw [at_] at step
      cases Option.some.inj step
      exact .clear at_
  | exited =>
      rw [at_] at step
      cases step

/-- The steps of all threads. -/
inductive Steps (p : Service) : Mover × Act → Service → Prop where
  | listener {accepted : Option Int} {created : Bool} {act : Act} {after : Service}
      (listens : Listens p act after) : Steps p (.listener accepted created, act) after
  | thread {k : Nat} {gone : Int} {act : Act} {after : Service} (below : k < p.threadCount)
      (serves : Serves p k gone act after) : Steps p (.thread k gone, act) after

theorem serviceExec_cases {p after : Service} {event : Mover × Act}
    (step : ExecStep serviceExec p event after) : Steps p event after := by
  obtain ⟨mover, act⟩ := event
  unfold ExecStep serviceExec at step
  cases mover with
  | listener accepted created => exact .listener (listenStep_cases step)
  | thread k gone =>
      dsimp only at step
      split at step
      · rename_i below
        exact .thread below (threadStep_cases step)
      · cases step

end DvsServer.Uart.Listener
