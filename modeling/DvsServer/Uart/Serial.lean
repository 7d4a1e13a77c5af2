import DvsServer.Lib.Run
import DvsServer.Uart.Command

/-!
# Sharing the serial port (`uart/src/uart_service.c`)

The service threads all use one serial port and take `g_serviceMgr.mutex` for it.
Packets and the results of the calls are arbitrary.  The listing of a command's bytes
and what happens to the socket when a thread ends are left out.
-/

namespace DvsServer.Uart.Serial

open DvsServer.Lib DvsServer.Uart.Command

/-- A call of a function that uses the serial port. -/
inductive Access where
  /-- `set_serial_speed` -/
  | speed (baudrate : Int32)
  /-- `set_serial_parity` -/
  | parity (databits stopbits parity : Int32)
  /-- `send_serial_data` -/
  | data (cmd : Vector UInt8 ptzCmdMaxLen) (len : Int32)
deriving DecidableEq

def Access.speedOf (pack : SerialPack) : Access := .speed pack.baudrate

def Access.parityOf (pack : SerialPack) : Access := .parity pack.databits pack.stopbits pack.parity

def Access.dataOf (pack : PtzCmdPack) : Access := .data pack.cmd pack.len

/-- Where a thread stands in `tcp_cmd_set_serial_port`. -/
inductive SetPc where
  | recv
  | lock (pack : SerialPack)
  | speed (pack : SerialPack)
  /-- in `set_serial_speed` -/
  | inSpeed (pack : SerialPack)
  | parity (pack : SerialPack)
  /-- in `set_serial_parity` -/
  | inParity (pack : SerialPack)
  | unlock (ret : Int)

/-- Where a thread stands in `tcp_cmd_exec_ptz`. -/
inductive PtzPc where
  | recv
  | lock (pack : PtzCmdPack)
  | send (pack : PtzCmdPack)
  /-- in `send_serial_data` -/
  | inSend (pack : PtzCmdPack)
  | unlock (ret : Int)

/-- Where a thread stands in `uartServiceThr`. -/
inductive ThreadPc where
  /-- before `tcp_analysis_cmdheader` -/
  | header
  | setSerialPort (pc : SetPc)
  | execPtz (pc : PtzPc)
  /-- at the `return` of either function -/
  | leave (ret : Int)
  /-- behind the loop -/
  | exit
  | exited

/-- What the calls of a thread give. -/
structure Given where
  /-- the result of `tcp_analysis_cmdheader` -/
  serverCMD : Int
  /-- what `recv_tcp_pack` stores -/
  serialPack : Option SerialPack
  ptzPack : Option PtzCmdPack
  /-- the result of a serial function -/
  ret : Int

structure Mover where
  thread : Nat
  given : Given

inductive Act where
  | quiet
  | locks (k : Nat)
  | unlocks (k : Nat)
  /-- thread `k` calls a serial function -/
  | calls (k : Nat) (access : Access)
  /-- the serial function returns -/
  | ends (k : Nat) (access : Access)
  /-- one of the two functions returns -/
  | returns (k : Nat) (ret : Int)
  | exits (k : Nat)

abbrev History := List (Mover × Act)

structure State where
  /-- the thread that has taken `g_serviceMgr.mutex` -/
  mutex : Option Nat
  threads : Nat → ThreadPc

def State.setThread (p : State) (k : Nat) (pc : ThreadPc) : State :=
  { p with threads := Function.update p.threads k pc }

/-- One step of `tcp_cmd_set_serial_port`. -/
def setStep (p : State) (k : Nat) (given : Given) : SetPc → Option (Act × State)
  | .recv =>
      some (.quiet, p.setThread k (given.serialPack.elim (.leave (-1)) fun pack => .setSerialPort (.lock pack)))
  | .lock pack =>
      if p.mutex = none then
        some (.locks k, { p.setThread k (.setSerialPort (.speed pack)) with mutex := some k })
      else none
  | .speed pack => some (.calls k (.speedOf pack), p.setThread k (.setSerialPort (.inSpeed pack)))
  | .inSpeed pack =>
      some (.ends k (.speedOf pack),
        p.setThread k (.setSerialPort (if given.ret ≠ 0 then .unlock (-1) else .parity pack)))
  | .parity pack => some (.calls k (.parityOf pack), p.setThread k (.setSerialPort (.inParity pack)))
  | .inParity pack =>
      some (.ends k (.parityOf pack),
        p.setThread k (.setSerialPort (.unlock (if given.ret ≠ 0 then -1 else 0))))
  | .unlock ret => some (.unlocks k, { p.setThread k (.leave ret) with mutex := none })

/-- One step of `tcp_cmd_exec_ptz`. -/
def ptzStep (p : State) (k : Nat) (given : Given) : PtzPc → Option (Act × State)
  | .recv =>
      some (.quiet, p.setThread k (given.ptzPack.elim (.leave (-1)) fun pack => .execPtz (.lock pack)))
  | .lock pack =>
      if p.mutex = none then
        some (.locks k, { p.setThread k (.execPtz (.send pack)) with mutex := some k })
      else none
  | .send pack => some (.calls k (.dataOf pack), p.setThread k (.execPtz (.inSend pack)))
  | .inSend pack =>
      some (.ends k (.dataOf pack),
        p.setThread k (.execPtz (.unlock (if given.ret ≠ pack.len.toInt then -1 else 0))))
  | .unlock ret => some (.unlocks k, { p.setThread k (.leave ret) with mutex := none })

/-- Where the `switch` leads. -/
def dispatch (serverCMD : Int) : ThreadPc :=
  if serverCMD < 0 then .exit
  else if serverCMD = dvsTcpCmdUart.toNat then .setSerialPort .recv
  else if serverCMD = dvsTcpCmdPtz.toNat then .execPtz .recv
  else .header

def serialExec (p : State) (mover : Mover) : Option (Act × State) :=
  let k := mover.thread
  match p.threads k with
  | .header => some (.quiet, p.setThread k (dispatch mover.given.serverCMD))
  | .setSerialPort pc => setStep p k mover.given pc
  | .execPtz pc => ptzStep p k mover.given pc
  | .leave ret => some (.returns k ret, p.setThread k (if ret < 0 then .exit else .header))
  | .exit => some (.exits k, p.setThread k .exited)
  | .exited => none

/-- After `uart_service_init`; threads that do not exist yet have not moved. -/
structure Started (p : State) : Prop where
  mutex : p.mutex = none
  threads : ∀ k, p.threads k = .header

/-! ## The property -/

/-- The thread that holds the mutex. -/
def holder : History → Option Nat
  | [] => none
  | (_, .locks k) :: _ => some k
  | (_, .unlocks _) :: _ => none
  | _ :: before => holder before

/-- The serial function that has been called and has not returned. -/
def inProgress : History → Option (Nat × Access)
  | [] => none
  | (_, .calls k access) :: _ => some (k, access)
  | (_, .ends _ _) :: _ => none
  | _ :: before => inProgress before

/-- How often thread `k` has taken the mutex. -/
def taken (k : Nat) : History → Nat
  | [] => 0
  | (_, .locks j) :: before => taken k before + if j = k then 1 else 0
  | _ :: before => taken k before

/-- How often thread `k` has released the mutex. -/
def released (k : Nat) : History → Nat
  | [] => 0
  | (_, .unlocks j) :: before => released k before + if j = k then 1 else 0
  | _ :: before => released k before

/-- Serial functions are called one at a time and by the thread that holds the mutex,
from the call to the return. -/
def Locked : History → Prop
  | [] => True
  | (_, .calls k _) :: before => (holder before = some k ∧ inProgress before = none) ∧ Locked before
  | (_, .ends k access) :: before =>
      (holder before = some k ∧ inProgress before = some (k, access)) ∧ Locked before
  | _ :: before => Locked before

/-- Between a `set_serial_speed` and the `set_serial_parity` of the same thread that
follows it no serial function is called. -/
def Undisturbed (history : History) : Prop :=
  ∀ (later between earlier : History) (m m' : Mover) (k : Nat) (baudrate databits stopbits parity : Int32),
    history = later ++ (m, .calls k (.parity databits stopbits parity)) ::
      (between ++ (m', .calls k (.speed baudrate)) :: earlier) →
    (∀ event ∈ between, (∀ baudrate, event.2 ≠ .calls k (.speed baudrate)) ∧
      ∀ databits stopbits parity, event.2 ≠ .calls k (.parity databits stopbits parity)) →
    ∀ event ∈ between, ∀ j access, event.2 ≠ .calls j access

/-- Wherever one of the two functions returns or a thread exits, the thread has released
the mutex as often as it has taken it. -/
def Balanced : History → Prop
  | [] => True
  | (_, .returns k _) :: before => taken k before = released k before ∧ Balanced before
  | (_, .exits k) :: before => taken k before = released k before ∧ Balanced before
  | _ :: before => Balanced before

structure Serialised (history : History) : Prop where
  locked : Locked history
  undisturbed : Undisturbed history
  balanced : Balanced history

/-! ## What a step does -/

/-- The places between taking the mutex and releasing it. -/
def ThreadPc.inside : ThreadPc → Bool
  | .setSerialPort .recv | .setSerialPort (.lock _) => false
  | .setSerialPort _ => true
  | .execPtz .recv | .execPtz (.lock _) => false
  | .execPtz _ => true
  | _ => false

/-- The acts that concern neither the mutex nor the serial port. -/
def Act.neutral : Act → Bool
  | .quiet | .returns _ _ | .exits _ => true
  | _ => false

/-- The thread that returns from one of the two functions or exits. -/
def Act.leaver : Act → Option Nat
  | .returns k _ | .exits k => some k
  | _ => none

/-- The places behind the lock. -/
inductive Locks : ThreadPc → Prop where
  | speed (pack : SerialPack) : Locks (.setSerialPort (.speed pack))
  | send (pack : PtzCmdPack) : Locks (.execPtz (.send pack))

inductive Calls : ThreadPc → Access → ThreadPc → Prop where
  | speed (pack : SerialPack) :
      Calls (.setSerialPort (.speed pack)) (.speedOf pack) (.setSerialPort (.inSpeed pack))
  | parity (pack : SerialPack) :
      Calls (.setSerialPort (.parity pack)) (.parityOf pack) (.setSerialPort (.inParity pack))
  | send (pack : PtzCmdPack) : Calls (.execPtz (.send pack)) (.dataOf pack) (.execPtz (.inSend pack))

inductive Ends : ThreadPc → Access → ThreadPc → Prop where
  | speed (pack : SerialPack) :
      Ends (.setSerialPort (.inSpeed pack)) (.speedOf pack) (.setSerialPort (.parity pack))
  | noSpeed (pack : SerialPack) :
      Ends (.setSerialPort (.inSpeed pack)) (.speedOf pack) (.setSerialPort (.unlock (-1)))
  | parity (pack : SerialPack) (ret : Int) :
      Ends (.setSerialPort (.inParity pack)) (.parityOf pack) (.setSerialPort (.unlock ret))
  | send (pack : PtzCmdPack) (ret : Int) :
      Ends (.execPtz (.inSend pack)) (.dataOf pack) (.execPtz (.unlock ret))

inductive Unlocks : ThreadPc → Prop where
  | setSerialPort (ret : Int) : Unlocks (.setSerialPort (.unlock ret))
  | execPtz (ret : Int) : Unlocks (.execPtz (.unlock ret))

inductive Moves (p : State) (k : Nat) : Act → State → Prop where
  | outside {act : Act} {pc : ThreadPc} (neutral : act.neutral = true)
      (own : ∀ j, act.leaver = some j → j = k)
      (was : (p.threads k).inside = false) (now : pc.inside = false) : Moves p k act (p.setThread k pc)
  | lock {pc : ThreadPc} (was : (p.threads k).inside = false) (free : p.mutex = none) (now : Locks pc) :
      Moves p k (.locks k) { p.setThread k pc with mutex := some k }
  | call {access : Access} {pc : ThreadPc} (calls : Calls (p.threads k) access pc) :
      Moves p k (.calls k access) (p.setThread k pc)
  | ends {access : Access} {pc : ThreadPc} (ends : Ends (p.threads k) access pc) :
      Moves p k (.ends k access) (p.setThread k pc)
  | unlock {ret : Int} (was : Unlocks (p.threads k)) :
      Moves p k (.unlocks k) { p.setThread k (.leave ret) with mutex := none }

theorem Moves.quiet {p : State} {k : Nat} {pc : ThreadPc} (was : (p.threads k).inside = false)
    (now : pc.inside = false) : Moves p k .quiet (p.setThread k pc) := by
  apply Moves.outside rfl _ was now
  intro j leaves
  cases leaves

theorem setStep_cases {p after : State} {k : Nat} {given : Given} {pc : SetPc} {act : Act}
    (at_ : p.threads k = .setSerialPort pc) (step : setStep p k given pc = some (act, after)) :
    Moves p k act after := by
  cases pc with
  | recv =>
      cases Option.some.inj step
      apply Moves.quiet
      · rw [at_]
        rfl
      · cases given.serialPack <;> rfl
  | lock pack =>
      rw [setStep] at step
      split at step
      · rename_i free
        cases Option.some.inj step
        exact .lock (by rw [at_]; rfl) free (.speed pack)
      · cases step
  | speed pack =>
      cases Option.some.inj step
      exact .call (at_ ▸ .speed pack)
  | inSpeed pack =>
      cases Option.some.inj step
      apply Moves.ends
      rw [at_]
      split
      · exact .noSpeed pack
      · exact .speed pack
  | parity pack =>
      cases Option.some.inj step
      exact .call (at_ ▸ .parity pack)
  | inParity pack =>
      cases Option.some.inj step
      exact .ends (at_ ▸ .parity pack _)
  | unlock ret =>
      cases Option.some.inj step
      exact .unlock (at_ ▸ .setSerialPort ret)

theorem ptzStep_cases {p after : State} {k : Nat} {given : Given} {pc : PtzPc} {act : Act}
    (at_ : p.threads k = .execPtz pc) (step : ptzStep p k given pc = some (act, after)) :
    Moves p k act after := by
  cases pc with
  | recv =>
      cases Option.some.inj step
      apply Moves.quiet
      · rw [at_]
        rfl
      · cases given.ptzPack <;> rfl
  | lock pack =>
      rw [ptzStep] at step
      split at step
      · rename_i free
        cases Option.some.inj step
        exact .lock (by rw [at_]; rfl) free (.send pack)
      · cases step
  | send pack =>
      cases Option.some.inj step
      exact .call (at_ ▸ .send pack)
  | inSend pack =>
      cases Option.some.inj step
      exact .ends (at_ ▸ .send pack _)
  | unlock ret =>
      cases Option.some.inj step
      exact .unlock (at_ ▸ .execPtz ret)

theorem dispatch_inside (serverCMD : Int) : (dispatch serverCMD).inside = false := by
  unfold dispatch
  split
  · rfl
  · split
    · rfl
    · split <;> rfl

theorem serialExec_cases {p after : State} {mover : Mover} {act : Act}
    (step : serialExec p mover = some (act, after)) : Moves p mover.thread act after := by
  unfold serialExec at step
  dsimp only at step
  cases at_ : p.threads mover.thread with
  | header =>
      rw [at_] at step
      cases Option.some.inj step
      exact .quiet (by rw [at_]; rfl) (dispatch_inside _)
  | setSerialPort pc =>
      rw [at_] at step
      exact setStep_cases at_ step
  | execPtz pc =>
      rw [at_] at step
      exact ptzStep_cases at_ step
  | leave ret =>
      rw [at_] at step
      cases Option.some.inj step
      apply Moves.outside rfl
      · intro j same
        exact (Option.some.inj same).symm
      · rw [at_]
        rfl
      · split <;> rfl
  | exit =>
      rw [at_] at step
      cases Option.some.inj step
      apply Moves.outside rfl
      · intro j same
        exact (Option.some.inj same).symm
      · rw [at_]
        rfl
      · rfl
  | exited =>
      rw [at_] at step
      cases step

/-! ## The invariant -/

/-- The serial function that has been called last. -/
def latestCall : History → Option (Nat × Access)
  | [] => none
  | (_, .calls k access) :: _ => some (k, access)
  | _ :: before => latestCall before

/-- What has happened at the serial port when thread `k` is at a place behind the lock. -/
def Placed (k : Nat) (history : History) : ThreadPc → Prop
  | .setSerialPort (.speed _) | .execPtz (.send _) => inProgress history = none
  | .setSerialPort (.inSpeed pack) =>
      inProgress history = some (k, .speedOf pack) ∧ latestCall history = some (k, .speedOf pack)
  | .setSerialPort (.parity pack) =>
      inProgress history = none ∧ latestCall history = some (k, .speedOf pack)
  | .setSerialPort (.inParity pack) => inProgress history = some (k, .parityOf pack)
  | .execPtz (.inSend pack) => inProgress history = some (k, .dataOf pack)
  | .setSerialPort (.unlock _) | .execPtz (.unlock _) => inProgress history = none
  | _ => True

/-- The thread of every `set_serial_parity` has called its `set_serial_speed` last. -/
def Paired : History → Prop
  | [] => True
  | (_, .calls k (.parity _ _ _)) :: before =>
      (∃ baudrate, latestCall before = some (k, .speed baudrate)) ∧ Paired before
  | _ :: before => Paired before

structure PortOk (history : History) (p : State) : Prop where
  holder : holder history = p.mutex
  owns : ∀ k, (p.threads k).inside = true ↔ p.mutex = some k
  counts : ∀ k, taken k history = released k history + if p.mutex = some k then 1 else 0
  free : p.mutex = none → inProgress history = none
  placed : ∀ k, Placed k history (p.threads k)
  locked : Locked history
  paired : Paired history
  balanced : Balanced history

@[simp] theorem setThread_self (p : State) (k : Nat) (pc : ThreadPc) : (p.setThread k pc).threads k = pc :=
  Function.update_self ..

theorem setThread_ne {p : State} {j k : Nat} (differs : j ≠ k) (pc : ThreadPc) :
    (p.setThread k pc).threads j = p.threads j :=
  Function.update_of_ne differs ..

theorem Placed.outside {k : Nat} {history : History} {pc : ThreadPc} (outside : pc.inside = false) :
    Placed k history pc := by
  cases pc with
  | setSerialPort pc => cases pc <;> trivial
  | execPtz pc => cases pc <;> trivial
  | _ => trivial

/-- An act that does not concern the port leaves the history of the port as it is. -/
theorem neutral_cons {act : Act} (neutral : act.neutral = true) (mover : Mover) (before : History) :
    Uart.Serial.holder ((mover, act) :: before) = Uart.Serial.holder before ∧
      inProgress ((mover, act) :: before) = inProgress before ∧
      latestCall ((mover, act) :: before) = latestCall before ∧
      (∀ k, taken k ((mover, act) :: before) = taken k before) ∧
      ∀ k, released k ((mover, act) :: before) = released k before := by
  cases act with
  | quiet => exact ⟨rfl, rfl, rfl, fun _ => rfl, fun _ => rfl⟩
  | returns k ret => exact ⟨rfl, rfl, rfl, fun _ => rfl, fun _ => rfl⟩
  | exits k => exact ⟨rfl, rfl, rfl, fun _ => rfl, fun _ => rfl⟩
  | _ => cases neutral

theorem Placed.congr {k : Nat} {history after : History} {pc : ThreadPc}
    (placed : Placed k history pc) (inProgress_eq : inProgress after = inProgress history)
    (latestCall_eq : latestCall after = latestCall history) : Placed k after pc := by
  unfold Placed at placed ⊢
  rw [inProgress_eq, latestCall_eq]
  exact placed

namespace PortOk

variable {history : History} {p : State} {k : Nat}

/-- While a thread is behind its lock all others are outside. -/
theorem alone (ok : PortOk history p) (inside : (p.threads k).inside = true) {j : Nat} (differs : j ≠ k) :
    (p.threads j).inside = false := by
  by_contra both
  have mine := (ok.owns k).mp inside
  have theirs := (ok.owns j).mp (eq_true_of_ne_false both)
  rw [mine] at theirs
  exact differs (Option.some.inj theirs).symm

theorem neutral {act : Act} {pc : ThreadPc} (ok : PortOk history p) (mover : Mover)
    (neutral : act.neutral = true) (own : ∀ j, act.leaver = some j → j = k)
    (was : (p.threads k).inside = false) (now : pc.inside = false) :
    PortOk ((mover, act) :: history) (p.setThread k pc) := by
  obtain ⟨holder_eq, inProgress_eq, latestCall_eq, taken_eq, released_eq⟩ :=
    neutral_cons neutral mover history
  have notHeld : p.mutex ≠ some k := by
    intro held
    rw [(ok.owns k).mpr held] at was
    cases was
  have balance : taken k history = released k history := by
    rw [ok.counts k, if_neg notHeld]
    rfl
  constructor
  · rw [holder_eq]
    exact ok.holder
  · intro j
    by_cases same : j = k
    · rw [same, setThread_self, now]
      exact ⟨nofun, fun held => absurd held notHeld⟩
    · rw [setThread_ne same]
      exact ok.owns j
  · intro j
    rw [taken_eq, released_eq]
    exact ok.counts j
  · rw [inProgress_eq]
    exact ok.free
  · intro j
    by_cases same : j = k
    · rw [same, setThread_self]
      exact .outside now
    · rw [setThread_ne same]
      exact (ok.placed j).congr inProgress_eq latestCall_eq
  · cases act with
    | calls _ _ => cases neutral
    | ends _ _ => cases neutral
    | _ => exact ok.locked
  · cases act with
    | calls _ _ => cases neutral
    | _ => exact ok.paired
  · cases act with
    | returns j ret =>
        rw [own j rfl]
        exact ⟨balance, ok.balanced⟩
    | exits j =>
        rw [own j rfl]
        exact ⟨balance, ok.balanced⟩
    | _ => exact ok.balanced

theorem lock {pc : ThreadPc} (ok : PortOk history p) (mover : Mover) (free : p.mutex = none)
    (now : Locks pc) :
    PortOk ((mover, .locks k) :: history) { p.setThread k pc with mutex := some k } := by
  have idle := ok.free free
  have outside : ∀ j, (p.threads j).inside = false := by
    intro j
    by_contra inside
    have held := (ok.owns j).mp (eq_true_of_ne_false inside)
    rw [free] at held
    cases held
  have inside : pc.inside = true ∧ Placed k ((mover, .locks k) :: history) pc := by
    cases now with
    | speed pack => exact ⟨rfl, idle⟩
    | send pack => exact ⟨rfl, idle⟩
  constructor
  · rfl
  · intro j
    by_cases same : j = k
    · rw [same]
      dsimp only
      rw [setThread_self]
      exact ⟨fun _ => rfl, fun _ => inside.1⟩
    · dsimp only
      rw [setThread_ne same, outside j]
      exact ⟨nofun, fun held => absurd (Option.some.inj held).symm same⟩
  · intro j
    have counts := ok.counts j
    rw [free, if_neg nofun] at counts
    simp only [taken, released, Option.some.injEq, counts]
    rfl
  · nofun
  · intro j
    by_cases same : j = k
    · rw [same]
      dsimp only
      rw [setThread_self]
      exact inside.2
    · dsimp only
      rw [setThread_ne same]
      exact .outside (outside j)
  · exact ok.locked
  · exact ok.paired
  · exact ok.balanced

/-- What the thread with the mutex does at the port: the mutex stays with it. -/
theorem access {act : Act} {pc : ThreadPc} (ok : PortOk history p) (mover : Mover)
    (was : (p.threads k).inside = true) (now : pc.inside = true)
    (atPort : ∃ access, act = .calls k access ∨ act = .ends k access)
    (placed : Placed k ((mover, act) :: history) pc) (locked : Locked ((mover, act) :: history))
    (paired : Paired ((mover, act) :: history)) : PortOk ((mover, act) :: history) (p.setThread k pc) := by
  have held := (ok.owns k).mp was
  constructor
  · obtain ⟨access, rfl | rfl⟩ := atPort <;> exact ok.holder
  · intro j
    by_cases same : j = k
    · rw [same, setThread_self]
      exact ⟨fun _ => held, fun _ => now⟩
    · rw [setThread_ne same]
      exact ok.owns j
  · obtain ⟨access, rfl | rfl⟩ := atPort <;> exact ok.counts
  · intro free
    have free' : p.mutex = none := free
    rw [held] at free'
    cases free'
  · intro j
    by_cases same : j = k
    · rw [same, setThread_self]
      exact placed
    · rw [setThread_ne same]
      exact .outside (ok.alone was same)
  · exact locked
  · exact paired
  · obtain ⟨access, rfl | rfl⟩ := atPort <;> exact ok.balanced

theorem call {access : Access} {pc : ThreadPc} (ok : PortOk history p) (mover : Mover)
    (calls : Calls (p.threads k) access pc) :
    PortOk ((mover, .calls k access) :: history) (p.setThread k pc) := by
  have placed := ok.placed k
  have holder_eq := ok.holder
  cases at_ : p.threads k with
  | setSerialPort _ =>
      rw [at_] at calls placed
      have held := (ok.owns k).mp (by rw [at_]; cases calls <;> rfl)
      rw [held] at holder_eq
      cases calls with
      | speed pack =>
          exact ok.access mover (by rw [at_]; rfl) rfl ⟨_, .inl rfl⟩ ⟨rfl, rfl⟩
            ⟨⟨holder_eq, placed⟩, ok.locked⟩ ok.paired
      | parity pack =>
          exact ok.access mover (by rw [at_]; rfl) rfl ⟨_, .inl rfl⟩ rfl
            ⟨⟨holder_eq, placed.1⟩, ok.locked⟩ ⟨⟨_, placed.2⟩, ok.paired⟩
  | execPtz _ =>
      rw [at_] at calls placed
      have held := (ok.owns k).mp (by rw [at_]; cases calls; rfl)
      rw [held] at holder_eq
      cases calls with
      | send pack =>
          exact ok.access mover (by rw [at_]; rfl) rfl ⟨_, .inl rfl⟩ rfl
            ⟨⟨holder_eq, placed⟩, ok.locked⟩ ok.paired
  | _ =>
      rw [at_] at calls
      cases calls

theorem ends {access : Access} {pc : ThreadPc} (ok : PortOk history p) (mover : Mover)
    (ends : Ends (p.threads k) access pc) :
    PortOk ((mover, .ends k access) :: history) (p.setThread k pc) := by
  have placed := ok.placed k
  have holder_eq := ok.holder
  cases at_ : p.threads k with
  | setSerialPort _ =>
      rw [at_] at ends placed
      have held := (ok.owns k).mp (by rw [at_]; cases ends <;> rfl)
      rw [held] at holder_eq
      cases ends with
      | speed pack =>
          exact ok.access mover (by rw [at_]; rfl) rfl ⟨_, .inr rfl⟩ ⟨rfl, placed.2⟩
            ⟨⟨holder_eq, placed.1⟩, ok.locked⟩ ok.paired
      | noSpeed pack =>
          exact ok.access mover (by rw [at_]; rfl) rfl ⟨_, .inr rfl⟩ rfl
            ⟨⟨holder_eq, placed.1⟩, ok.locked⟩ ok.paired
      | parity pack ret =>
          exact ok.access mover (by rw [at_]; rfl) rfl ⟨_, .inr rfl⟩ rfl
            ⟨⟨holder_eq, placed⟩, ok.locked⟩ ok.paired
  | execPtz _ =>
      rw [at_] at ends placed
      have held := (ok.owns k).mp (by rw [at_]; cases ends; rfl)
      rw [held] at holder_eq
      cases ends with
      | send pack ret =>
          exact ok.access mover (by rw [at_]; rfl) rfl ⟨_, .inr rfl⟩ rfl
            ⟨⟨holder_eq, placed⟩, ok.locked⟩ ok.paired
  | _ =>
      rw [at_] at ends
      cases ends

theorem unlock {ret : Int} (ok : PortOk history p) (mover : Mover) (was : Unlocks (p.threads k)) :
    PortOk ((mover, .unlocks k) :: history) { p.setThread k (.leave ret) with mutex := none } := by
  have inside : (p.threads k).inside = true ∧ inProgress history = none := by
    have placed := ok.placed k
    generalize p.threads k = pc at was placed
    cases was with
    | setSerialPort ret => exact ⟨rfl, placed⟩
    | execPtz ret => exact ⟨rfl, placed⟩
  have held := (ok.owns k).mp inside.1
  constructor
  · rfl
  · intro j
    dsimp only
    by_cases same : j = k
    · rw [same, setThread_self]
      exact ⟨nofun, nofun⟩
    · rw [setThread_ne same, ok.alone inside.1 same]
      exact ⟨nofun, nofun⟩
  · intro j
    have counts := ok.counts j
    rw [held] at counts
    simp only [taken, released, Option.some.injEq] at counts ⊢
    rw [counts]
    rfl
  · intro _
    exact inside.2
  · intro j
    dsimp only
    by_cases same : j = k
    · rw [same, setThread_self]
      trivial
    · rw [setThread_ne same]
      exact .outside (ok.alone inside.1 same)
  · exact ok.locked
  · exact ok.paired
  · exact ok.balanced

theorem step {after : State} {mover : Mover} {act : Act} (ok : PortOk history p)
    (step : serialExec p mover = some (act, after)) : PortOk ((mover, act) :: history) after := by
  cases serialExec_cases step with
  | outside neutral own was now => exact ok.neutral mover neutral own was now
  | lock _ free now => exact ok.lock mover free now
  | call calls => exact ok.call mover calls
  | ends ends => exact ok.ends mover ends
  | unlock was => exact ok.unlock mover was

end PortOk

/-! ## Every run -/

theorem Started.portOk {p : State} (started : Started p) : PortOk [] p := by
  constructor
  · exact started.mutex.symm
  · intro k
    rw [started.threads, started.mutex]
    exact ⟨nofun, nofun⟩
  · intro k
    rw [started.mutex]
    rfl
  · intro _
    rfl
  · intro k
    rw [started.threads]
    trivial
  · trivial
  · trivial
  · trivial

theorem run_portOk {start p : State} {history : History} (started : Started start)
    (run : Run (ExecStep serialExec) start history p) : PortOk history p := by
  apply run.invariant fun history p => PortOk history p
  · exact started.portOk
  · rintro history p ⟨mover, act⟩ after _ ok step
    exact ok.step step

theorem Paired.earlier {history later : History} (paired : Paired (later ++ history)) : Paired history := by
  induction later with
  | nil => exact paired
  | cons event rest ih =>
      apply ih
      obtain ⟨mover, act⟩ := event
      cases act with
      | calls k access =>
          cases access with
          | parity databits stopbits parity => exact paired.2
          | _ => exact paired
      | _ => exact paired

/-- The thread's own call is the last one if it has not called again. -/
theorem no_call_between {between earlier : History} {m : Mover} {k : Nat} {baudrate baudrate' : Int32}
    (latest : latestCall (between ++ (m, .calls k (.speed baudrate)) :: earlier) =
      some (k, .speed baudrate'))
    (own : ∀ event ∈ between, ∀ baudrate, event.2 ≠ .calls k (.speed baudrate)) :
    ∀ event ∈ between, ∀ j access, event.2 ≠ .calls j access := by
  induction between with
  | nil => nofun
  | cons event rest ih =>
      have own' : ∀ event ∈ rest, ∀ baudrate, event.2 ≠ .calls k (.speed baudrate) := by
        intro event inRest
        exact own event (List.mem_cons_of_mem _ inRest)
      intro other member j access called
      obtain ⟨mover, act⟩ := event
      cases act with
      | calls i access' =>
          cases Option.some.inj latest
          exact own _ List.mem_cons_self baudrate' rfl
      | _ =>
          rcases List.mem_cons.mp member with here | inRest
          · rw [here] at called
            cases called
          · exact ih latest own' other inRest j access called

theorem Paired.undisturbed {history : History} (paired : Paired history) : Undisturbed history := by
  intro later between earlier m m' k baudrate databits stopbits parity split_ own
  rw [split_] at paired
  obtain ⟨⟨baudrate', latest⟩, _⟩ := paired.earlier
  exact no_call_between latest fun event member => (own event member).1

/-- In every run the serial functions are called one at a time under the mutex, the two
calls for one command follow one another, and the mutex is given back on every way out. -/
theorem serial_commands_are_serialised {start p : State} {history : History} (started : Started start)
    (run : Run (ExecStep serialExec) start history p) : Serialised history := by
  have ok := run_portOk started run
  exact ⟨ok.locked, ok.paired.undisturbed, ok.balanced⟩

/-- `uart_service_init` has run. -/
def ready : State := ⟨none, fun _ => .header⟩

theorem ready_started : Started ready := ⟨rfl, fun _ => rfl⟩

/-- The packets and results of two clients. -/
def setting : Given := ⟨1, some ⟨9600, 8, 1, 78⟩, none, 0⟩

def moving : Given := ⟨0, none, some ⟨#v[0xFF, 1, 0, 8, 0, 0x20, 0x29, 0], 7⟩, 7⟩

/-- A client moves its camera after another has set the port. -/
theorem serial_commands_are_serialised_two : ∃ result,
    execAll serialExec (List.replicate 2 ⟨1, moving⟩ ++ List.replicate 9 ⟨0, setting⟩ ++
      List.replicate 5 ⟨1, moving⟩) ([], ready) = some result ∧ Serialised result.1 := by
  obtain ⟨result, executed⟩ := Option.isSome_iff_exists.mp
    (show (execAll serialExec (List.replicate 2 ⟨1, moving⟩ ++ List.replicate 9 ⟨0, setting⟩ ++
      List.replicate 5 ⟨1, moving⟩) ([], ready)).isSome = true by decide)
  exact ⟨result, executed, serial_commands_are_serialised ready_started (execAll_run .nil executed)⟩

end DvsServer.Uart.Serial
