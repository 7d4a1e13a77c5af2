import DvsServer.Uart.Overload

/-!
# The slot numbers of the UART service threads

All service threads get the address of one variable of the listener.  A thread finds
its own slot number there as long as the listener does not write the next one before
the thread has read its own.
-/

namespace DvsServer.Uart.Listener

open DvsServer.Lib

/-! ## The property -/

/-- An accepted connection and the slot it is stored in. -/
structure Connection where
  slot : Fin maxClientNum
  socket : Int

/-- The connection that was stored last. -/
def storedLast : History → Option Connection
  | [] => none
  | (_, .stores slot socket) :: _ => some ⟨slot, socket⟩
  | _ :: before => storedLast before

/-- The connection that thread `k` was created for. -/
def connectionOf : History → Nat → Option Connection
  | [], _ => none
  | (_, .creates j _) :: before, k => if j = k then storedLast before else connectionOf before k
  | _ :: before, k => connectionOf before k

/-- Every thread reads the number of its own slot and then its own socket. -/
def ReadsOwn : History → Prop
  | [] => True
  | (_, .reads k clientNo) :: before =>
      (∃ own, connectionOf before k = some own ∧ clientNo = own.slot) ∧ ReadsOwn before
  | (_, .loads k socketfd) :: before =>
      (∃ own, connectionOf before k = some own ∧ socketfd = own.socket) ∧ ReadsOwn before
  | _ :: before => ReadsOwn before

/-- The accepted connections no thread was created for. -/
def unserved : History → List Int
  | [] => []
  | (_, .accepts clientSocket _) :: before => clientSocket :: unserved before
  | (_, .creates _ clientSocket) :: before => (unserved before).erase clientSocket
  | _ :: before => unserved before

/-- Every thread serves the connection it was created for, no two threads serve one
socket, and every accepted connection but the one the listener is busy with has a thread. -/
structure ServesOwn (history : History) (p : Service) : Prop where
  own : ReadsOwn history
  apart : ∀ j k, j ≠ k → ∀ i i' socketfd socketfd', j < p.threadCount → k < p.threadCount →
    p.threads j = .serve i socketfd → p.threads k = .serve i' socketfd' → socketfd ≠ socketfd'
  served : unserved history = p.inHand.toList

/-- Every thread has read its argument. -/
def Service.allRead (p : Service) : Bool := decide (∀ k < p.threadCount, p.threads k ≠ .start)

/-- The listener writes `clientNo`, or is gone, only when every thread has read it; it
finds an idle slot for every connection, and the thread can be created. -/
def readsFirst (p : Service) : Mover × Act → Bool
  | (_, .numbers _) | (_, .stops) => p.allRead
  | (_, .refuses _) | (_, .createFails) => false
  | _ => true

def ReadsFirst (p : Service) (event : Mover × Act) : Prop := readsFirst p event = true

instance (p : Service) : DecidablePred (ReadsFirst p) := fun event =>
  inferInstanceAs (Decidable (readsFirst p event = true))

/-! ## The invariant -/

/-- The thread has its socket open. -/
def ThreadPc.connected : ThreadPc → Bool
  | .start | .load _ | .serve _ _ | .close _ => true
  | _ => false

/-- Thread `k` and the connection it was created for. -/
structure Serving (p : Service) (k : Nat) (own : Connection) : Prop where
  start : p.threads k = .start → p.listener ≠ .returned ∧ p.clientNo = own.slot
  load : ∀ clientNo, p.threads k = .load clientNo → clientNo = own.slot
  serve : ∀ i socketfd, p.threads k = .serve i socketfd → i = own.slot ∧ socketfd = own.socket
  close : ∀ i, p.threads k = .close i → i = own.slot
  clear : ∀ i, p.threads k = .clear i → i = own.slot
  held : p.threads k ≠ .exited → p.sockets own.slot = own.socket ∧ 0 ≤ own.socket
  opened : (p.threads k).connected = true → own.socket ∈ p.opened

/-- The slot the listener has chosen and not filled yet. -/
def Service.chosen (p : Service) : Option Int :=
  match p.listener with
  | .number _ i => some (i : Int)
  | .store _ => some p.clientNo
  | _ => none

structure Numbered (history : History) (p : Service) : Prop where
  known : ∀ k own, connectionOf history k = some own → k < p.threadCount
  created : ∀ k < p.threadCount, ∃ own, connectionOf history k = some own
  serving : ∀ k own, connectionOf history k = some own → Serving p k own
  slots : ∀ j k one two, j ≠ k → connectionOf history j = some one → connectionOf history k = some two →
    p.threads j ≠ .exited → p.threads k ≠ .exited → one.slot ≠ two.slot
  sockets : ∀ j k one two, j ≠ k → connectionOf history j = some one → connectionOf history k = some two →
    (p.threads j).connected = true → (p.threads k).connected = true → one.socket ≠ two.socket
  hand : ∀ clientSocket, p.inHand = some clientSocket → 0 ≤ clientSocket ∧ clientSocket ∈ p.opened ∧
    ∀ k own, connectionOf history k = some own → (p.threads k).connected = true → own.socket ≠ clientSocket
  chosen : ∀ i : Fin maxClientNum, p.chosen = some (i : Int) → p.sockets i < 0
  filled : ∀ clientSocket, p.listener = .create clientSocket → ∃ i : Fin maxClientNum,
    storedLast history = some ⟨i, clientSocket⟩ ∧ p.clientNo = i ∧ p.sockets i = clientSocket ∧
      ∀ k own, connectionOf history k = some own → p.threads k ≠ .exited → own.slot ≠ i

/-- What a thread created for `own` knows at a place. -/
def ThreadPc.Knows (p : Service) (own : Connection) : ThreadPc → Prop
  | .start => p.listener ≠ .returned ∧ p.clientNo = own.slot
  | .load clientNo => clientNo = own.slot
  | .serve i socketfd => i = own.slot ∧ socketfd = own.socket
  | .close i | .clear i => i = own.slot
  | .exited => True

theorem Serving.of_knows {p : Service} {k : Nat} {own : Connection} {pc : ThreadPc}
    (at_ : p.threads k = pc) (knows : pc.Knows p own)
    (held : pc ≠ .exited → p.sockets own.slot = own.socket ∧ 0 ≤ own.socket)
    (opened : pc.connected = true → own.socket ∈ p.opened) : Serving p k own := by
  subst at_
  refine ⟨fun here => ?_, fun clientNo here => ?_, fun i socketfd here => ?_, fun i here => ?_,
    fun i here => ?_, held, opened⟩ <;>
  · rw [here] at knows
    exact knows

/-- The thread stays where it is, and nothing of what it relies on changes. -/
theorem Serving.congr {p after : Service} {k : Nat} {own : Connection} (serving : Serving p k own)
    (threads : after.threads k = p.threads k)
    (start : p.threads k = .start → after.listener ≠ .returned ∧ after.clientNo = p.clientNo)
    (sockets : p.threads k ≠ .exited → after.sockets own.slot = p.sockets own.slot)
    (opened : (p.threads k).connected = true → own.socket ∈ p.opened → own.socket ∈ after.opened) :
    Serving after k own := by
  constructor
  · rw [threads]
    intro at_
    obtain ⟨stays, same⟩ := start at_
    exact ⟨stays, same.trans (serving.start at_).2⟩
  · rw [threads]
    exact serving.load
  · rw [threads]
    exact serving.serve
  · rw [threads]
    exact serving.close
  · rw [threads]
    exact serving.clear
  · rw [threads]
    intro running
    rw [sockets running]
    exact serving.held running
  · rw [threads]
    exact fun connected => opened connected (serving.opened connected)

/-! ## The steps of the listener -/

/-- The listener goes on, and neither the slots nor the threads change. -/
theorem Numbered.move {history : History} {p after : Service} {event : Mover × Act}
    (numbered : Numbered history p)
    (same : ∀ k, connectionOf (event :: history) k = connectionOf history k)
    (threads : after.threads = p.threads) (threadCount : after.threadCount = p.threadCount)
    (sockets : after.sockets = p.sockets)
    (start : ∀ k < p.threadCount, p.threads k = .start →
      after.listener ≠ .returned ∧ after.clientNo = p.clientNo)
    (opened : ∀ socket ∈ p.opened, socket ∈ after.opened)
    (hand : ∀ clientSocket, after.inHand = some clientSocket → 0 ≤ clientSocket ∧
      clientSocket ∈ after.opened ∧ ∀ k own, connectionOf history k = some own →
        (p.threads k).connected = true → own.socket ≠ clientSocket)
    (chosen : ∀ i : Fin maxClientNum, after.chosen = some (i : Int) → p.sockets i < 0)
    (filled : ∀ clientSocket, after.listener ≠ .create clientSocket) :
    Numbered (event :: history) after := by
  constructor
  · intro k own found
    rw [same] at found
    rw [threadCount]
    exact numbered.known k own found
  · intro k below
    rw [same]
    rw [threadCount] at below
    exact numbered.created k below
  · intro k own found
    rw [same] at found
    refine (numbered.serving k own found).congr (by rw [threads]) ?_ (by simp [sockets]) ?_
    · exact start k (numbered.known k own found)
    · exact fun _ => opened own.socket
  · intro j k one two other found found' running running'
    rw [same] at found found'
    rw [threads] at running running'
    exact numbered.slots j k one two other found found' running running'
  · intro j k one two other found found' running running'
    rw [same] at found found'
    rw [threads] at running running'
    exact numbered.sockets j k one two other found found' running running'
  · intro clientSocket holds
    rw [threads]
    obtain ⟨valid, member, apart⟩ := hand clientSocket holds
    refine ⟨valid, member, fun k own found => ?_⟩
    rw [same] at found
    exact apart k own found
  · rw [sockets]
    exact chosen
  · exact fun clientSocket at_ => absurd at_ (filled clientSocket)

/-- A thread that is running holds a slot that is not idle. -/
theorem Numbered.busy {history : History} {p : Service} (numbered : Numbered history p) {k : Nat}
    {own : Connection} (found : connectionOf history k = some own) (running : p.threads k ≠ .exited)
    {i : Fin maxClientNum} (idle : p.sockets i < 0) : own.slot ≠ i := by
  rintro rfl
  have held := (numbered.serving k own found).held running
  omega

theorem Numbered.store {history : History} {p : Service} {mover : Mover} {clientSocket : Int}
    {i : Fin maxClientNum} (numbered : Numbered history p) (at_ : p.listener = .store clientSocket)
    (slot : p.clientNo = i) :
    Numbered ((mover, .stores i clientSocket) :: history)
      ((p.setSocket i clientSocket).goto (.create clientSocket)) := by
  have idle : p.sockets i < 0 := by
    apply numbered.chosen
    rw [Service.chosen, at_]
    exact congrArg some slot
  have hand := numbered.hand clientSocket (by rw [Service.inHand, at_])
  have away : ∀ k own, connectionOf history k = some own → p.threads k ≠ .exited → own.slot ≠ i :=
    fun k own found running => numbered.busy found running idle
  constructor
  · exact numbered.known
  · exact numbered.created
  · intro k own found
    refine (numbered.serving k own found).congr rfl (fun _ => ⟨nofun, rfl⟩) (fun running => ?_) fun _ => id
    exact setSocket_ne (away k own found running) clientSocket
  · exact numbered.slots
  · exact numbered.sockets
  · intro other holds
    cases holds
    exact hand
  · intro j holds
    cases holds
  · intro other here
    cases here
    exact ⟨i, rfl, slot, setSocket_self p i clientSocket, away⟩

theorem Numbered.create {history : History} {p : Service} {mover : Mover} {clientSocket : Int}
    (numbered : Numbered history p) (at_ : p.listener = .create clientSocket) :
    Numbered ((mover, .creates p.threadCount clientSocket) :: history)
      { p.setThread p.threadCount .start with listener := .accept, threadCount := p.threadCount + 1 } := by
  obtain ⟨i, last, number, stored, away⟩ := numbered.filled clientSocket at_
  obtain ⟨valid, opened, other⟩ := numbered.hand clientSocket (by rw [Service.inHand, at_])
  -- the new thread, and the threads there were
  have new : connectionOf ((mover, .creates p.threadCount clientSocket) :: history) p.threadCount =
      some ⟨i, clientSocket⟩ := by
    rw [connectionOf, if_pos rfl, last]
  have old : ∀ k, k ≠ p.threadCount →
      connectionOf ((mover, .creates p.threadCount clientSocket) :: history) k = connectionOf history k := by
    intro k differs
    rw [connectionOf, if_neg differs.symm]
  have cases_of : ∀ {k own},
      connectionOf ((mover, .creates p.threadCount clientSocket) :: history) k = some own →
        k = p.threadCount ∧ own = ⟨i, clientSocket⟩ ∨
          k ≠ p.threadCount ∧ connectionOf history k = some own := by
    intro k own found
    by_cases here : k = p.threadCount
    · subst here
      exact .inl ⟨rfl, Option.some.inj (found.symm.trans new)⟩
    · rw [old k here] at found
      exact .inr ⟨here, found⟩
  constructor
  · intro k own found
    rcases cases_of found with ⟨rfl, _⟩ | ⟨_, before⟩
    · exact Nat.lt_succ_self _
    · exact Nat.lt_succ_of_lt (numbered.known k own before)
  · intro k below
    by_cases here : k = p.threadCount
    · rw [here]
      exact ⟨_, new⟩
    · rw [old k here]
      have below' : k < p.threadCount + 1 := below
      exact numbered.created k (by omega)
  · intro k own found
    rcases cases_of found with ⟨rfl, rfl⟩ | ⟨here, before⟩
    · exact .of_knows (setThread_self ..) ⟨nofun, number⟩ (fun _ => ⟨stored, valid⟩) fun _ => opened
    · exact (numbered.serving k own before).congr (setThread_ne here _) (fun _ => ⟨nofun, rfl⟩)
        (fun _ => rfl) fun _ => id
  · intro j k one two differ found found' running running'
    rcases cases_of found with ⟨rfl, rfl⟩ | ⟨here, before⟩
    · rcases cases_of found' with ⟨rfl, rfl⟩ | ⟨here', before'⟩
      · exact absurd rfl differ
      · rw [setThread_ne here'] at running'
        exact (away k two before' running').symm
    · rw [setThread_ne here] at running
      rcases cases_of found' with ⟨rfl, rfl⟩ | ⟨here', before'⟩
      · exact away j one before running
      · rw [setThread_ne here'] at running'
        exact numbered.slots j k one two differ before before' running running'
  · intro j k one two differ found found' running running'
    rcases cases_of found with ⟨rfl, rfl⟩ | ⟨here, before⟩
    · rcases cases_of found' with ⟨rfl, rfl⟩ | ⟨here', before'⟩
      · exact absurd rfl differ
      · dsimp only at running'
        rw [setThread_ne here'] at running'
        exact (other k two before' running').symm
    · dsimp only at running
      rw [setThread_ne here] at running
      rcases cases_of found' with ⟨rfl, rfl⟩ | ⟨here', before'⟩
      · exact other j one before running
      · dsimp only at running'
        rw [setThread_ne here'] at running'
        exact numbered.sockets j k one two differ before before' running running'
  · intro socket holds
    cases holds
  · intro j holds
    cases holds
  · intro socket here
    cases here

theorem Numbered.listen {history : History} {p after : Service} {mover : Mover} {act : Act}
    (numbered : Numbered history p) (first : ReadsFirst p (mover, act)) (listens : Listens p act after) :
    Numbered ((mover, act) :: history) after := by
  -- the connection in the listener's hands stays the same
  have hand : ∀ {clientSocket}, p.inHand = some clientSocket → ∀ socket, some clientSocket = some socket →
      0 ≤ socket ∧ socket ∈ p.opened ∧ ∀ k own, connectionOf history k = some own →
        (p.threads k).connected = true → own.socket ≠ socket := by
    intro clientSocket holds socket same
    exact numbered.hand socket (holds.trans same)
  have unread : p.allRead = true → ∀ k < p.threadCount, p.threads k ≠ .start := of_decide_eq_true
  cases listens with
  | stop at_ =>
      refine numbered.move (fun _ => rfl) rfl rfl rfl (fun k below start => ?_) (fun _ => id) nofun nofun nofun
      exact absurd start (unread first k below)
  | @accept clientSocket at_ valid new =>
      refine numbered.move (fun _ => rfl) rfl rfl rfl (fun _ _ _ => ⟨nofun, rfl⟩)
        (fun _ => List.mem_cons_of_mem _) (fun socket holds => ?_) nofun nofun
      cases holds
      refine ⟨valid, List.mem_cons_self, fun k own found connected same => ?_⟩
      have opened := (numbered.serving k own found).opened connected
      rw [same] at opened
      exact new opened
  | found at_ idle =>
      refine numbered.move (fun _ => rfl) rfl rfl rfl (fun _ _ _ => ⟨nofun, rfl⟩) (fun _ => id)
        (hand (by rw [Service.inHand, at_])) (fun j holds => ?_) nofun
      have same := Int.ofNat.inj (Option.some.inj holds)
      rw [← Fin.ext same]
      exact idle
  | next at_ busy follows =>
      exact numbered.move (fun _ => rfl) rfl rfl rfl (fun _ _ _ => ⟨nofun, rfl⟩) (fun _ => id)
        (hand (by rw [Service.inHand, at_])) nofun nofun
  | refuse at_ busy last => cases first
  | @number clientSocket i at_ =>
      refine numbered.move (fun _ => rfl) rfl rfl rfl (fun k below start => ?_) (fun _ => id)
        (hand (by rw [Service.inHand, at_])) (fun j holds => ?_) nofun
      · exact absurd start (unread first k below)
      · have same := Int.ofNat.inj (Option.some.inj holds)
        rw [← Fin.ext same]
        apply numbered.chosen
        rw [Service.chosen, at_]
  | store at_ slot => exact numbered.store at_ slot
  | create at_ => exact numbered.create at_
  | fail at_ => cases first

/-! ## The steps of the threads -/

/-- A thread goes on; it changes its own slot at most and closes its own socket at most. -/
theorem Numbered.advance {history : History} {p after : Service} {event : Mover × Act} {k : Nat}
    {own : Connection} {pc : ThreadPc} (numbered : Numbered history p)
    (same : ∀ j, connectionOf (event :: history) j = connectionOf history j)
    (last : storedLast (event :: history) = storedLast history)
    (found : connectionOf history k = some own) (running : p.threads k ≠ .exited)
    (threads : after.threads = Function.update p.threads k pc)
    (threadCount : after.threadCount = p.threadCount) (listener : after.listener = p.listener)
    (clientNo : after.clientNo = p.clientNo)
    (sockets : ∀ i, i ≠ own.slot → after.sockets i = p.sockets i)
    (opened : ∀ socket ∈ p.opened, socket ∈ after.opened ∨
      socket = own.socket ∧ (p.threads k).connected = true)
    (connected : pc.connected = true → (p.threads k).connected = true)
    (serving : Serving after k own) : Numbered (event :: history) after := by
  have self : after.threads k = pc := by
    rw [threads, Function.update_self]
  have others : ∀ j, j ≠ k → after.threads j = p.threads j := by
    intro j differs
    rw [threads, Function.update_of_ne differs]
  have runs : ∀ j, after.threads j ≠ .exited → p.threads j ≠ .exited := by
    intro j still
    by_cases here : j = k
    · rw [here]
      exact running
    · rw [← others j here]
      exact still
  have connects : ∀ j, (after.threads j).connected = true → (p.threads j).connected = true := by
    intro j still
    by_cases here : j = k
    · subst here
      rw [self] at still
      exact connected still
    · rw [← others j here]
      exact still
  constructor
  · intro j other found'
    rw [same] at found'
    rw [threadCount]
    exact numbered.known j other found'
  · intro j below
    rw [same]
    rw [threadCount] at below
    exact numbered.created j below
  · intro j other found'
    rw [same] at found'
    by_cases here : j = k
    · subst here
      rw [found] at found'
      cases found'
      exact serving
    · refine (numbered.serving j other found').congr (others j here) (fun at_ => ?_) (fun still => ?_)
        (fun still member => ?_)
      · rw [listener]
        exact ⟨((numbered.serving j other found').start at_).1, clientNo⟩
      · exact sockets _ (numbered.slots j k other own here found' found still running)
      · refine (opened _ member).resolve_right fun ⟨shared, connected⟩ => ?_
        exact numbered.sockets j k other own here found' found still connected shared
  · intro i j one two differ found' found'' still still'
    rw [same] at found' found''
    exact numbered.slots i j one two differ found' found'' (runs i still) (runs j still')
  · intro i j one two differ found' found'' still still'
    rw [same] at found' found''
    exact numbered.sockets i j one two differ found' found'' (connects i still) (connects j still')
  · intro clientSocket holds
    rw [Service.inHand, listener] at holds
    obtain ⟨valid, member, apart⟩ := numbered.hand clientSocket holds
    refine ⟨valid, (opened clientSocket member).resolve_right fun ⟨shared, connected⟩ => ?_, ?_⟩
    · exact apart k own found connected shared.symm
    · intro j other found' still
      rw [same] at found'
      exact apart j other found' (connects j still)
  · intro i holds
    rw [Service.chosen, listener, clientNo] at holds
    have idle := numbered.chosen i holds
    rw [sockets i (numbered.busy found running idle).symm]
    exact idle
  · intro clientSocket at_
    rw [listener] at at_
    obtain ⟨i, stored, number, held, away⟩ := numbered.filled clientSocket at_
    refine ⟨i, last.trans stored, clientNo.trans number, ?_, fun j other found' still => ?_⟩
    · rw [sockets i (away k own found running).symm]
      exact held
    · rw [same] at found'
      exact away j other found' (runs j still)

theorem Numbered.serve {history : History} {p after : Service} {k : Nat} {gone : Int} {act : Act}
    (numbered : Numbered history p) (below : k < p.threadCount) (serves : Serves p k gone act after) :
    Numbered ((.thread k gone, act) :: history) after := by
  obtain ⟨own, found⟩ := numbered.created k below
  have serving := numbered.serving k own found
  have running : p.threads k ≠ .exited := by
    cases serves <;> simp [*]
  have held := serving.held running
  cases serves with
  | read at_ =>
      obtain ⟨stays, number⟩ := serving.start at_
      have knows : (p.argument gone : Int) = own.slot := by
        rw [Service.argument, if_neg stays]
        exact number
      exact numbered.advance (fun _ => rfl) rfl found running rfl rfl rfl rfl (fun _ _ => rfl)
        (fun _ => .inl) (fun _ => by rw [at_]; rfl)
        (.of_knows (setThread_self ..) knows (fun _ => held) fun _ => serving.opened (by rw [at_]; rfl))
  | @load clientNo i at_ slot =>
      have same : i = own.slot := Fin.ext (Int.ofNat.inj (slot.symm.trans (serving.load clientNo at_)))
      have knows : i = own.slot ∧ p.sockets i = own.socket := by
        rw [same]
        exact ⟨rfl, held.1⟩
      exact numbered.advance (fun _ => rfl) rfl found running rfl rfl rfl rfl (fun _ _ => rfl)
        (fun _ => .inl) (fun _ => by rw [at_]; rfl)
        (.of_knows (setThread_self ..) knows (fun _ => held) fun _ => serving.opened (by rw [at_]; rfl))
  | @leave i socketfd at_ =>
      have knows := (serving.serve _ _ at_).1
      exact numbered.advance (fun _ => rfl) rfl found running rfl rfl rfl rfl (fun _ _ => rfl)
        (fun _ => .inl) (fun _ => by rw [at_]; rfl)
        (.of_knows (setThread_self ..) knows (fun _ => held) fun _ => serving.opened (by rw [at_]; rfl))
  | @close i at_ =>
      have knows := serving.close i at_
      refine numbered.advance (fun _ => rfl) rfl found running rfl rfl rfl rfl (fun _ _ => rfl)
        (fun socket member => ?_) nofun (.of_knows (setThread_self ..) knows (fun _ => held) nofun)
      by_cases closed : socket = own.socket
      · exact .inr ⟨closed, by rw [at_]; rfl⟩
      · rw [← held.1, ← knows] at closed
        exact .inl ((List.mem_erase_of_ne closed).mpr member)
  | @clear i at_ =>
      have same := serving.clear i at_
      refine numbered.advance (fun _ => rfl) rfl found running rfl rfl rfl rfl (fun j other => ?_)
        (fun _ => .inl) nofun (.of_knows (setThread_self ..) trivial (fun still => absurd rfl still) nofun)
      exact setSocket_ne (fun equal => other (equal.trans same)) (-1)

/-! ## Every run -/

theorem Started.numbered {p : Service} (started : Started p) : Numbered [] p := by
  refine ⟨nofun, fun k below => ?_, nofun, nofun, nofun, fun socket holds => ?_, fun i holds => ?_,
    fun socket at_ => ?_⟩
  · rw [started.threadCount] at below
    exact absurd below (Nat.not_lt_zero k)
  · rw [Service.inHand, started.listener] at holds
    cases holds
  · rw [Service.chosen, started.listener] at holds
    cases holds
  · rw [started.listener] at at_
    cases at_

theorem Numbered.step {history : History} {p after : Service} {event : Mover × Act}
    (numbered : Numbered history p) (first : ReadsFirst p event) (steps : Steps p event after) :
    Numbered (event :: history) after := by
  cases steps with
  | listener listens => exact numbered.listen first listens
  | thread below serves => exact numbered.serve below serves

/-- A thread reads its own number and its own socket. -/
theorem Numbered.readsOwn {history : History} {p after : Service} {event : Mover × Act}
    (numbered : Numbered history p) (own : ReadsOwn history) (steps : Steps p event after) :
    ReadsOwn (event :: history) := by
  cases steps with
  | listener listens =>
      cases listens <;> exact own
  | @thread k gone act after below serves =>
      obtain ⟨conn, found⟩ := numbered.created k below
      have serving := numbered.serving k conn found
      cases serves with
      | read at_ =>
          obtain ⟨stays, number⟩ := serving.start at_
          refine ⟨⟨conn, found, ?_⟩, own⟩
          rw [Service.argument, if_neg stays]
          exact number
      | @load clientNo i at_ slot =>
          have same : i = conn.slot := Fin.ext (Int.ofNat.inj (slot.symm.trans (serving.load clientNo at_)))
          refine ⟨⟨conn, found, ?_⟩, own⟩
          rw [same]
          exact (serving.held (by rw [at_]; exact ThreadPc.noConfusion)).1
      | _ => exact own

theorem Numbered.apart {history : History} {p : Service} (numbered : Numbered history p) {j k : Nat}
    (differ : j ≠ k) {i i' : Fin maxClientNum} {socketfd socketfd' : Int} (below : j < p.threadCount)
    (below' : k < p.threadCount) (at_ : p.threads j = .serve i socketfd)
    (at_' : p.threads k = .serve i' socketfd') : socketfd ≠ socketfd' := by
  obtain ⟨one, found⟩ := numbered.created j below
  obtain ⟨two, found'⟩ := numbered.created k below'
  rw [((numbered.serving j one found).serve _ _ at_).2, ((numbered.serving k two found').serve _ _ at_').2]
  exact numbered.sockets j k one two differ found found' (by rw [at_]; rfl) (by rw [at_']; rfl)

/-- The listener creates a thread for each connection it accepts. -/
theorem unserved_step {history : History} {p after : Service} {event : Mover × Act}
    (served : unserved history = p.inHand.toList) (first : ReadsFirst p event)
    (steps : Steps p event after) : unserved (event :: history) = after.inHand.toList := by
  cases steps with
  | listener listens =>
      cases listens with
      | refuse => cases first
      | fail => cases first
      | accept at_ valid new =>
          rw [Service.inHand, at_] at served
          exact congrArg (List.cons _) served
      | create at_ =>
          rw [Service.inHand, at_] at served
          rw [unserved, served]
          simp [Service.inHand]
      | stop at_ =>
          rw [Service.inHand, at_] at served
          exact served
      | found at_ =>
          rw [Service.inHand, at_] at served
          exact served
      | next at_ =>
          rw [Service.inHand, at_] at served
          exact served
      | number at_ =>
          rw [Service.inHand, at_] at served
          exact served
      | store at_ =>
          rw [Service.inHand, at_] at served
          exact served
  | thread below serves =>
      cases serves <;> exact served

/-- If every thread has read its number before the listener writes the next one, and
every connection finds an idle slot and gets a thread, then every thread serves its own
connection. -/
theorem threads_that_read_first_serve_own {start p : Service} {history : History} (started : Started start)
    (run : Run (Guarded ReadsFirst (ExecStep serviceExec)) start history p) : ServesOwn history p := by
  have all : Numbered history p ∧ ReadsOwn history ∧ unserved history = p.inHand.toList := by
    apply run.invariant fun history p =>
      Numbered history p ∧ ReadsOwn history ∧ unserved history = p.inHand.toList
    · refine ⟨started.numbered, trivial, ?_⟩
      rw [Service.inHand, started.listener]
      rfl
    · rintro history p event after _ ⟨numbered, own, served⟩ ⟨first, step⟩
      have steps := serviceExec_cases step
      exact ⟨numbered.step first steps, numbered.readsOwn own steps, unserved_step served first steps⟩
  obtain ⟨numbered, own, served⟩ := all
  exact ⟨own, fun j k differ i i' socketfd socketfd' below below' => numbered.apart differ below below', served⟩

/-- A client connects to slot `i`, and its thread, the `k`-th, starts to serve it. -/
def serving (i k : Nat) : List Mover := connecting i ++ [.thread k 0, .thread k 0]

/-- Two clients connect, the first one leaves and a third one gets its slot. -/
theorem threads_that_read_first_serve_own_three : ∃ result,
    execAll (checked ReadsFirst serviceExec)
      (serving 0 0 ++ serving 1 1 ++ List.replicate 3 (.thread 0 0) ++ serving 0 2) ([], listening) =
        some result ∧ ServesOwn result.1 result.2 := by
  obtain ⟨result, executed⟩ := Option.isSome_iff_exists.mp
    (show (execAll (checked ReadsFirst serviceExec)
      (serving 0 0 ++ serving 1 1 ++ List.replicate 3 (.thread 0 0) ++ serving 0 2)
        ([], listening)).isSome = true by decide)
  exact ⟨result, executed, threads_that_read_first_serve_own listening_started
    ((execAll_run .nil executed).mono ExecStep.guarded)⟩

/-- The second connection comes before the first thread has read its number: both
threads serve the second connection. -/
theorem threads_serve_own_fails : ¬ ∀ (start p : Service) (history : History), Started start →
    Run (ExecStep serviceExec) start history p → (∀ event ∈ history, event.2.fails = false) →
      ServesOwn history p := by
  intro claim
  have shared : ((execAll serviceExec
      (connecting 0 ++ connecting 1 ++ [.thread 0 0, .thread 0 0, .thread 1 0, .thread 1 0])
        ([], listening)).any fun (history, p) => (history.all fun event => !event.2.fails) &&
          decide (1 < p.threadCount) && p.threads 0 == .serve 1 6 && p.threads 1 == .serve 1 6) = true := by
    decide
  obtain ⟨⟨history, p⟩, ran, shared⟩ := (Option.any_eq_true _ _).mp shared
  simp only [Bool.and_eq_true, beq_iff_eq, decide_eq_true_eq] at shared
  obtain ⟨⟨⟨succeed, two⟩, first⟩, second⟩ := shared
  have own := claim listening p history listening_started (execAll_run .nil ran)
    fun event member => (Bool.not_eq_true' _).mp (List.all_eq_true.mp succeed event member)
  exact own.apart 0 1 (by decide) 1 1 6 6 (Nat.lt_of_succ_lt two) two first second rfl

end DvsServer.Uart.Listener
