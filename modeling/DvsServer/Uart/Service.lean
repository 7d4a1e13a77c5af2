import DvsServer.Uart.Operate

/-!
# The command loop of one client (`uart/src/uart_service.c`)

Every `recv` gives the next chunk of the client's stream, and the thread waits in `recv`
when no chunk is left.  The thread has the serial port for itself.
-/

namespace DvsServer.Uart.Service

open DvsServer.Uart.Command DvsServer.Uart.Operate

/-- The `recv` a thread stands at. -/
inductive At where
  | header
  /-- in `tcp_cmd_set_serial_port` -/
  | serialPack
  /-- in `tcp_cmd_exec_ptz` -/
  | ptzPack
  /-- the loop has been left -/
  | exited
deriving DecidableEq

/-- What was received, unless the function returns -1. -/
def recvTcpPack (len : Nat) (chunk : List UInt8) : Option (List UInt8) :=
  if chunk.length = len then some chunk else none

def tcpAnalysisCmdheader (chunk : List UInt8) : Int :=
  (recvTcpPack tcpCmdHeaderLen chunk).elim (-1) fun header =>
    if header.take tcpCmdPosition = tcpCmdHeaderStr.take tcpCmdPosition then
      (byte header tcpCmdPosition).toNat
    else -1

/-- `tcp_cmd_set_serial_port` behind its `recv`. -/
def setSerialPort (port : Port) (pack : SerialPack) (calls : PortCalls) : Int × PortCalls :=
  let (ret, calls) := setSerialSpeed port pack.baudrate calls
  if ret ≠ 0 then (-1, calls)
  else
    let (ret, calls) := setSerialParity port pack.databits pack.stopbits pack.parity calls
    if ret ≠ 0 then (-1, calls) else (0, calls)

def tcpCmdSetSerialPort (port : Port) (chunk : List UInt8) (calls : PortCalls) : Int × PortCalls :=
  (recvTcpPack serialPackLen chunk).elim (-1, calls) fun bytes => setSerialPort port (.ofBytes bytes) calls

/-- The loop that prints the command, with `left` bytes to go; undefined where it reads
behind `cmd`. -/
def printLoop (cmd : Vector UInt8 ptzCmdMaxLen) : Nat → Nat → Option (List UInt8)
  | 0, _ => some []
  | left + 1, i =>
      cmd[i]?.bind fun shown => (printLoop cmd left (i + 1)).map fun rest => shown :: rest

/-- `tcp_cmd_exec_ptz` behind its `recv`. -/
def execPtz (port : Port) (pack : PtzCmdPack) (calls : PortCalls) : Option (Int × PortCalls) :=
  (printLoop pack.cmd pack.len.toInt.toNat 0).map fun _ =>
    let (ret, calls) := sendSerialData port pack.cmd pack.len calls
    if ret ≠ pack.len.toInt then (-1, calls) else (0, calls)

def tcpCmdExecPtz (port : Port) (chunk : List UInt8) (calls : PortCalls) : Option (Int × PortCalls) :=
  (recvTcpPack ptzCmdPackLen chunk).elim (some (-1, calls)) fun bytes =>
    execPtz port (.ofBytes bytes) calls

/-- Where the `switch` leads. -/
def dispatch (serverCMD : Int) : At :=
  if serverCMD < 0 then .exited
  else if serverCMD = dvsTcpCmdUart.toNat then .serialPack
  else if serverCMD = dvsTcpCmdPtz.toNat then .ptzPack
  else .header

/-- From one `recv` to the next. -/
def advance (port : Port) (chunk : List UInt8) (calls : PortCalls) : At → Option (At × PortCalls)
  | .header => some (dispatch (tcpAnalysisCmdheader chunk), calls)
  | .serialPack =>
      let (ret, calls) := tcpCmdSetSerialPort port chunk calls
      some (if ret < 0 then .exited else .header, calls)
  | .ptzPack =>
      (tcpCmdExecPtz port chunk calls).map fun (ret, calls) =>
        (if ret < 0 then .exited else .header, calls)
  | .exited => some (.exited, calls)

/-- The calls made on the port while a stream comes in these chunks, where they are
defined. -/
def serve (port : Port) : At → List (List UInt8) → PortCalls → Option PortCalls
  | _, [], calls => some calls
  | at_, chunk :: rest, calls =>
      (advance port chunk calls at_).bind fun (next, calls) => serve port next rest calls

def uartServiceThr (port : Port) (chunks : List (List UInt8)) (calls : PortCalls) : Option PortCalls :=
  serve port .header chunks calls

/-- How many bytes the `recv` asks for. -/
def At.request : At → Nat
  | .header => tcpCmdHeaderLen
  | .serialPack => serialPackLen
  | .ptzPack => ptzCmdPackLen
  | .exited => 0

/-- What the `recv` can give. -/
def At.Gives (at_ : At) (chunk : List UInt8) : Prop :=
  at_ = .exited ∨ 0 < chunk.length ∧ chunk.length ≤ at_.request

instance (at_ : At) (chunk : List UInt8) : Decidable (at_.Gives chunk) :=
  inferInstanceAs (Decidable (_ ∨ _))

/-- Each chunk is what the `recv` for it can give. -/
def Received (port : Port) : At → List (List UInt8) → PortCalls → Prop
  | _, [], _ => True
  | at_, chunk :: rest, calls =>
      at_.Gives chunk ∧ (advance port chunk calls at_).elim True fun (next, calls) =>
        Received port next rest calls

theorem setSerialPort_suffix (port : Port) (pack : SerialPack) (calls : PortCalls) :
    calls <:+ (setSerialPort port pack calls).2 := by
  have speed := setSerialSpeed_suffix port pack.baudrate calls
  have parity := setSerialParity_suffix port pack.databits pack.stopbits pack.parity
    (setSerialSpeed port pack.baudrate calls).2
  unfold setSerialPort
  dsimp only
  split
  · exact speed
  · split
    · exact speed.trans parity
    · exact speed.trans parity

theorem printLoop_isSome_iff (cmd : Vector UInt8 ptzCmdMaxLen) (left i : Nat) (inside : i ≤ ptzCmdMaxLen) :
    (printLoop cmd left i).isSome ↔ i + left ≤ ptzCmdMaxLen := by
  induction left generalizing i with
  | zero => simpa [printLoop] using inside
  | succ left ih =>
      rw [printLoop]
      by_cases more : i < ptzCmdMaxLen
      · simp only [Vector.getElem?_eq_getElem more, Option.bind_some, Option.isSome_map]
        rw [ih (i + 1) more]
        omega
      · have behind : cmd[i]? = none := Vector.getElem?_eq_none (Nat.not_lt.mp more)
        simp only [behind, Option.bind_none, Option.isSome_none, Bool.false_eq_true, false_iff]
        omega

/-- The command is executed when its length is one the array can have. -/
theorem execPtz_isSome_iff {port : Port} {pack : PtzCmdPack} {calls : PortCalls} :
    (execPtz port pack calls).isSome ↔ pack.len.toInt ≤ ptzCmdMaxLen := by
  rw [execPtz, Option.isSome_map, printLoop_isSome_iff _ _ _ (Nat.zero_le _), Nat.zero_add,
    Int.toNat_le]

theorem execPtz_suffix {port : Port} {pack : PtzCmdPack} {calls after : PortCalls} {ret : Int}
    (done : execPtz port pack calls = some (ret, after)) : calls <:+ after := by
  obtain ⟨shown, _, done⟩ := Option.map_eq_some_iff.mp done
  unfold sendSerialData at done
  dsimp only at done
  split at done
  · cases done
    exact List.suffix_cons _ _
  · cases done
    exact List.suffix_cons _ _

end DvsServer.Uart.Service
