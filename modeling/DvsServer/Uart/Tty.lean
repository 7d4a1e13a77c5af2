import DvsServer.Uart.LineFormat

/-!
# A tty under the serial port (`uart/src/uart_operate.c`)

A port that holds the attributes of its line, where any call of `tcgetattr` and of
`tcsetattr` may fail.
-/

namespace DvsServer.Uart.Operate

open DvsServer.Lib DvsServer.Uart.Command

def PortCall.isGet : PortCall → Bool
  | .tcgetattr => true
  | _ => false

def PortCall.isSet : PortCall → Bool
  | .tcsetattr _ => true
  | _ => false

/-- How often `tcgetattr` has been called. -/
def gets (calls : PortCalls) : Nat := calls.countP PortCall.isGet

/-- How often `tcsetattr` has been called. -/
def sets (calls : PortCalls) : Nat := calls.countP PortCall.isSet

structure Tty where
  /-- before the first call -/
  start : Termios
  /-- what the structure of the caller holds behind the `k`-th `tcgetattr`, if that fails -/
  unread : Nat → Option Termios
  /-- the result of the `k`-th `tcsetattr` -/
  setattr : Nat → Int
  write : PortCalls → Int

namespace Tty

/-- The attributes of the line behind these calls. -/
def line (tty : Tty) : PortCalls → Termios
  | [] => tty.start
  | .tcsetattr options :: calls =>
      if tty.setattr (sets calls + 1) = 0 then options else tty.line calls
  | _ :: calls => tty.line calls

/-- What the next `tcgetattr` leaves in the structure of its caller. -/
def got (tty : Tty) (calls : PortCalls) : Termios :=
  (tty.unread (gets calls + 1)).getD (tty.line calls)

def port (tty : Tty) : Port where
  tcgetattr calls :=
    (if (tty.unread (gets calls)).isSome then -1 else 0,
      (tty.unread (gets calls)).getD (tty.line calls))
  tcsetattr calls := tty.setattr (sets calls)
  write := tty.write

end Tty

/-- A tty that starts with its flags clear and fails no call. -/
def Tty.fresh : Tty where
  start := ⟨0o15, 0o15, 0, 0, 0, 0, 0, 0, []⟩
  unread _ := none
  setattr _ := 0
  write _ := 0

/-! ## What each call does -/

@[simp] theorem gets_tcgetattr (calls : PortCalls) : gets (.tcgetattr :: calls) = gets calls + 1 :=
  List.countP_cons_of_pos rfl

@[simp] theorem gets_tcflush (queue : Queue) (calls : PortCalls) :
    gets (.tcflush queue :: calls) = gets calls :=
  List.countP_cons_of_neg (by simp [PortCall.isGet])

@[simp] theorem gets_tcsetattr (options : Termios) (calls : PortCalls) :
    gets (.tcsetattr options :: calls) = gets calls :=
  List.countP_cons_of_neg (by simp [PortCall.isGet])

@[simp] theorem sets_tcgetattr (calls : PortCalls) : sets (.tcgetattr :: calls) = sets calls :=
  List.countP_cons_of_neg (by simp [PortCall.isSet])

@[simp] theorem sets_tcflush (queue : Queue) (calls : PortCalls) :
    sets (.tcflush queue :: calls) = sets calls :=
  List.countP_cons_of_neg (by simp [PortCall.isSet])

@[simp] theorem sets_tcsetattr (options : Termios) (calls : PortCalls) :
    sets (.tcsetattr options :: calls) = sets calls + 1 :=
  List.countP_cons_of_pos rfl

namespace Tty

variable (tty : Tty)

@[simp] theorem line_tcgetattr (calls : PortCalls) :
    tty.line (.tcgetattr :: calls) = tty.line calls := rfl

@[simp] theorem line_tcflush (queue : Queue) (calls : PortCalls) :
    tty.line (.tcflush queue :: calls) = tty.line calls := rfl

@[simp] theorem line_tcsetattr (options : Termios) (calls : PortCalls) :
    tty.line (.tcsetattr options :: calls) =
      if tty.setattr (sets calls + 1) = 0 then options else tty.line calls := rfl

@[simp] theorem port_tcgetattr (calls : PortCalls) :
    tty.port.tcgetattr (.tcgetattr :: calls) =
      (if (tty.unread (gets calls + 1)).isSome then -1 else 0, tty.got calls) := by
  simp [port, got]

@[simp] theorem port_tcsetattr (options : Termios) (calls : PortCalls) :
    tty.port.tcsetattr (.tcsetattr options :: calls) = tty.setattr (sets calls + 1) := by
  simp [port]

end Tty

/-! ## `set_serial_speed` -/

/-- The `speed_arr` entry for a speed in `name_arr`. -/
def speedCode (speed : Int32) : Option UInt32 := (nameArr.zip speedArr).lookup speed

def Termios.atSpeed (options : Termios) (code : UInt32) : Termios :=
  { options with ispeed := code, ospeed := code }

section Loop

theorem lookup_entry (speed : Int32) (entry : Int32 × UInt32) (rest : List (Int32 × UInt32)) :
    (entry :: rest).lookup speed = if speed = entry.1 then some entry.2 else rest.lookup speed := by
  rw [List.lookup_cons]
  split
  · rename_i same
    simp [eq_of_beq same]
  · rename_i differs
    simp [ne_of_beq_false differs]

variable (opt : Termios) (speed : Int32) (names : List (Int32 × UInt32)) (calls : PortCalls)

theorem speedLoop_ret :
    (speedLoop opt speed names calls).1 = (names.lookup speed).elim (-1) fun _ => 0 := by
  induction names generalizing calls with
  | nil => rfl
  | cons entry rest ih =>
      rw [speedLoop, lookup_entry]
      split
      · simp
      · simp [ih]

theorem speedLoop_line (tty : Tty) :
    tty.line (speedLoop opt speed names calls).2 =
      (names.lookup speed).elim (tty.line calls) fun code =>
        if tty.setattr (sets calls + 1) = 0 then opt.atSpeed code else tty.line calls := by
  induction names generalizing calls with
  | nil => rfl
  | cons entry rest ih =>
      rw [speedLoop, lookup_entry]
      split
      · simp [Termios.atSpeed]
      · simp [ih]

theorem speedLoop_gets : gets (speedLoop opt speed names calls).2 = gets calls := by
  induction names generalizing calls with
  | nil => rfl
  | cons entry rest ih =>
      rw [speedLoop]
      split
      · simp
      · simp [ih]

theorem speedLoop_sets :
    sets (speedLoop opt speed names calls).2 =
      (names.lookup speed).elim (sets calls) fun _ => sets calls + 1 := by
  induction names generalizing calls with
  | nil => rfl
  | cons entry rest ih =>
      rw [speedLoop, lookup_entry]
      split
      · simp
      · simp [ih]

end Loop

section

variable (tty : Tty) (speed : Int32) (calls : PortCalls)

theorem setSerialSpeed_ret :
    (setSerialSpeed tty.port speed calls).1 = (speedCode speed).elim (-1) fun _ => 0 :=
  speedLoop_ret _ _ _ _

/-- The speed is set in what the unchecked `tcgetattr` has left in `Opt`. -/
theorem setSerialSpeed_line :
    tty.line (setSerialSpeed tty.port speed calls).2 =
      (speedCode speed).elim (tty.line calls) fun code =>
        if tty.setattr (sets calls + 1) = 0 then (tty.got calls).atSpeed code else tty.line calls := by
  unfold setSerialSpeed
  dsimp only
  rw [speedLoop_line]
  simp [speedCode]

theorem setSerialSpeed_gets : gets (setSerialSpeed tty.port speed calls).2 = gets calls + 1 := by
  unfold setSerialSpeed
  dsimp only
  rw [speedLoop_gets]
  simp

theorem setSerialSpeed_sets :
    sets (setSerialSpeed tty.port speed calls).2 =
      (speedCode speed).elim (sets calls) fun _ => sets calls + 1 := by
  unfold setSerialSpeed
  dsimp only
  rw [speedLoop_sets]
  simp [speedCode]

end

/-! ## `set_serial_parity` -/

/-- The options `set_serial_parity` gives `tcsetattr`. -/
def Format.options (format : Format) (isN : Bool) (found : Termios) : Termios :=
  { found with
    cCflag := patched format.cflag found.cCflag
    cIflag := patched (format.iflag isN) found.cIflag
    vtime := 150
    vmin := 0 }

section

variable (tty : Tty) (databits stopbits parity : Int32) (calls : PortCalls)

/-- The format that the request asks for, where no call of `set_serial_parity` fails. -/
def formatSet : Option Format :=
  if tty.unread (gets calls + 1) = none ∧ tty.setattr (sets calls + 1) = 0 then
    formatOf databits stopbits parity
  else none

theorem setSerialParity_ret :
    (setSerialParity tty.port databits stopbits parity calls).1 =
      (formatSet tty databits stopbits parity calls).elim (-1) fun _ => 0 := by
  unfold setSerialParity formatSet
  simp only [Tty.port_tcgetattr, formatted_eq]
  cases unread : tty.unread (gets calls + 1) with
  | some _ => simp
  | none =>
      cases formatOf databits stopbits parity with
      | none => simp
      | some format =>
          by_cases done : tty.setattr (sets calls + 1) = 0
          · simp [done]
          · simp [done]

theorem setSerialParity_line :
    tty.line (setSerialParity tty.port databits stopbits parity calls).2 =
      (formatSet tty databits stopbits parity calls).elim (tty.line calls) fun format =>
        format.options (parity.toInt == 'n'.toNat) (tty.line calls) := by
  unfold setSerialParity formatSet
  simp only [Tty.port_tcgetattr, formatted_eq]
  cases unread : tty.unread (gets calls + 1) with
  | some _ => simp
  | none =>
      have got : tty.got calls = tty.line calls := by simp [Tty.got, unread]
      cases formatOf databits stopbits parity with
      | none => simp
      | some format =>
          by_cases done : tty.setattr (sets calls + 1) = 0
          · simp [done, got, Format.options]
          · simp [done]

end

end DvsServer.Uart.Operate
