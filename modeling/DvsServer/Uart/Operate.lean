import DvsServer.Uart.Command

/-!
# Operating the serial port (`uart/src/uart_operate.c`)

A port is what its calls give, as a function of the calls made on it so far, the
newest first.
-/

namespace DvsServer.Uart.Operate

open DvsServer.Uart.Command

/-- The attributes of a line; the speeds are those of `cfsetispeed` and `cfsetospeed`,
and `cCflag` is `c_cflag` without the bits of `CBAUD`, which carry them there. -/
structure Termios where
  ispeed : UInt32
  ospeed : UInt32
  cIflag : UInt32
  cOflag : UInt32
  cCflag : UInt32
  cLflag : UInt32
  vtime : UInt8
  vmin : UInt8
  /-- the other control characters -/
  cCc : List UInt8
deriving DecidableEq

/-! ### `termios.h` -/

def inpck : UInt32 := 0o20

def csize : UInt32 := 0o60

def cs7 : UInt32 := 0o40

def cs8 : UInt32 := 0o60

def cstopb : UInt32 := 0o100

def parenb : UInt32 := 0o400

def parodd : UInt32 := 0o1000

inductive Queue where
  | tciflush
  | tcioflush
deriving DecidableEq

inductive PortCall where
  | tcgetattr
  | tcflush (queue : Queue)
  | tcsetattr (options : Termios)
  | write (cmd : Vector UInt8 ptzCmdMaxLen) (len : Int32)
deriving DecidableEq

abbrev PortCalls := List PortCall

/-- The results of the newest call. -/
structure Port where
  /-- the result and what the structure holds then -/
  tcgetattr : PortCalls → Int × Termios
  tcsetattr : PortCalls → Int
  write : PortCalls → Int

/-- `speed_arr`: `B115200`, `B57600`, … -/
def speedArr : List UInt32 := [0o10002, 0o10001, 0o17, 0o16, 0o15, 0o14, 0o13, 0o11, 0o7]

def nameArr : List Int32 := [115200, 57600, 38400, 19200, 9600, 4800, 2400, 1200, 300]

/-- The loop of `set_serial_speed`. -/
def speedLoop (opt : Termios) (speed : Int32) : List (Int32 × UInt32) → PortCalls → Int × PortCalls
  | [], calls => (-1, calls)
  | (name, code) :: rest, calls =>
      if speed = name then
        (0, .tcsetattr { opt with ispeed := code, ospeed := code } :: .tcflush .tcioflush :: calls)
      else speedLoop opt speed rest (.tcflush .tcioflush :: calls)

/-- The results of `tcgetattr` and of `tcsetattr` make no difference. -/
def setSerialSpeed (port : Port) (speed : Int32) (calls : PortCalls) : Int × PortCalls :=
  let calls := .tcgetattr :: calls
  speedLoop (port.tcgetattr calls).2 speed (nameArr.zip speedArr) calls

/-- `switch (databits)` -/
def setDatabits (options : Termios) (databits : Int32) : Option Termios :=
  let options := { options with cCflag := options.cCflag &&& ~~~csize }
  if databits = 7 then some { options with cCflag := options.cCflag ||| cs7 }
  else if databits = 8 then some { options with cCflag := options.cCflag ||| cs8 }
  else none

/-- The letter in either case. -/
def isLetter (parity : Int32) (lower upper : Char) : Bool :=
  parity.toInt == lower.toNat || parity.toInt == upper.toNat

/-- `switch (parity)` -/
def setParity (options : Termios) (parity : Int32) : Option Termios :=
  if isLetter parity 'n' 'N' then
    some { options with
      cCflag := options.cCflag &&& ~~~parenb
      cIflag := options.cIflag &&& ~~~inpck }
  else if isLetter parity 'o' 'O' then
    some { options with
      cCflag := options.cCflag ||| (parodd ||| parenb)
      cIflag := options.cIflag ||| inpck }
  else if isLetter parity 'e' 'E' then
    some { options with
      cCflag := (options.cCflag ||| parenb) &&& ~~~parodd
      cIflag := options.cIflag ||| inpck }
  else if isLetter parity 's' 'S' then
    some { options with cCflag := options.cCflag &&& ~~~parenb &&& ~~~cstopb }
  else none

/-- `switch (stopbits)` -/
def setStopbits (options : Termios) (stopbits : Int32) : Option Termios :=
  if stopbits = 1 then some { options with cCflag := options.cCflag &&& ~~~cstopb }
  else if stopbits = 2 then some { options with cCflag := options.cCflag ||| cstopb }
  else none

/-- The attributes `set_serial_parity` makes of those it finds. -/
def formatted (options : Termios) (databits stopbits parity : Int32) : Option Termios := do
  let options ← setDatabits options databits
  let options ← setParity options parity
  let options ← setStopbits options stopbits
  return { options with
    cIflag := if parity.toInt ≠ 'n'.toNat then options.cIflag ||| inpck else options.cIflag
    vtime := 150
    vmin := 0 }

def setSerialParity (port : Port) (databits stopbits parity : Int32) (calls : PortCalls) :
    Int × PortCalls :=
  let calls := .tcgetattr :: calls
  let (ret, options) := port.tcgetattr calls
  if ret ≠ 0 then (-1, calls)
  else
    match formatted options databits stopbits parity with
    | none => (-1, calls)
    | some options =>
        let calls := .tcsetattr options :: .tcflush .tciflush :: calls
        (if port.tcsetattr calls ≠ 0 then -1 else 0, calls)

def sendSerialData (port : Port) (cmd : Vector UInt8 ptzCmdMaxLen) (len : Int32) (calls : PortCalls) :
    Int × PortCalls :=
  let calls := .write cmd len :: calls
  (port.write calls, calls)

/-! ### The calls so far are kept -/

theorem speedLoop_suffix (opt : Termios) (speed : Int32) (names : List (Int32 × UInt32))
    (calls : PortCalls) : calls <:+ (speedLoop opt speed names calls).2 := by
  induction names generalizing calls with
  | nil => exact List.suffix_rfl
  | cons entry rest ih =>
      rw [speedLoop]
      split
      · exact ⟨[_, _], rfl⟩
      · exact (List.suffix_cons _ _).trans (ih _)

theorem setSerialSpeed_suffix (port : Port) (speed : Int32) (calls : PortCalls) :
    calls <:+ (setSerialSpeed port speed calls).2 :=
  (List.suffix_cons _ _).trans (speedLoop_suffix _ _ _ _)

theorem setSerialParity_suffix (port : Port) (databits stopbits parity : Int32) (calls : PortCalls) :
    calls <:+ (setSerialParity port databits stopbits parity calls).2 := by
  unfold setSerialParity
  dsimp only
  split
  · exact List.suffix_cons _ _
  · split
    · exact List.suffix_cons _ _
    · exact ⟨[_, _, _], rfl⟩

end DvsServer.Uart.Operate
