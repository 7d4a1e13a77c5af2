import DvsServer.Uart.Service
import DvsServer.Uart.SerialParity

/-!
# The settings command (`tcp_cmd_set_serial_port`, `uart/src/uart_service.c`)

What the command leaves on the line of a tty, for every outcome of its calls.
-/

namespace DvsServer.Uart.Service

open DvsServer.Uart.Command DvsServer.Uart.Operate

/-- The line has the speed and the format of the packet. -/
structure Requested (pack : SerialPack) (line : Termios) : Prop where
  ispeed : speedCode pack.baudrate = some line.ispeed
  ospeed : speedCode pack.baudrate = some line.ospeed
  format : ∃ format, formatOf pack.databits pack.stopbits pack.parity = some format ∧
    Framed format line

/-- What a command that returned `ret` is to have done to the line. -/
structure AllOrNothing (pack : SerialPack) (before : Termios) (ret : Int) (after : Termios) : Prop where
  all : ret = 0 → Requested pack after
  nothing : ret < 0 → after = before

/-! ## The two halves of the command -/

section

variable (tty : Tty) (pack : SerialPack) (calls : PortCalls)

/-- The format that the second half of the command sets, unless that half fails. -/
def formatTaken : Option Format :=
  if tty.unread (gets calls + 2) = none ∧ tty.setattr (sets calls + 2) = 0 then
    formatOf pack.databits pack.stopbits pack.parity
  else none

/-- The line behind the first half. -/
def speeded (code : UInt32) : Termios :=
  if tty.setattr (sets calls + 1) = 0 then (tty.got calls).atSpeed code else tty.line calls

theorem setSerialPort_unknown {pack : SerialPack} (unknown : speedCode pack.baudrate = none) :
    (setSerialPort tty.port pack calls).1 = -1 ∧
      tty.line (setSerialPort tty.port pack calls).2 = tty.line calls := by
  have ret := setSerialSpeed_ret tty pack.baudrate calls
  have line := setSerialSpeed_line tty pack.baudrate calls
  rw [unknown] at ret line
  unfold setSerialPort
  simp only [ret]
  exact ⟨rfl, line⟩

/-- The second half makes the second of both calls. -/
theorem formatSet_speeded {pack : SerialPack} {code : UInt32}
    (known : speedCode pack.baudrate = some code) :
    formatSet tty pack.databits pack.stopbits pack.parity
      (setSerialSpeed tty.port pack.baudrate calls).2 = formatTaken tty pack calls := by
  unfold formatSet formatTaken
  rw [setSerialSpeed_gets, setSerialSpeed_sets, known]
  rfl

theorem setSerialPort_known {pack : SerialPack} {code : UInt32}
    (known : speedCode pack.baudrate = some code) :
    (setSerialPort tty.port pack calls).1 = (formatTaken tty pack calls).elim (-1) (fun _ => 0) ∧
      tty.line (setSerialPort tty.port pack calls).2 =
        (formatTaken tty pack calls).elim (speeded tty calls code) fun format =>
          format.options (pack.parity.toInt == 'n'.toNat) (speeded tty calls code) := by
  have ret := setSerialSpeed_ret tty pack.baudrate calls
  have line := setSerialSpeed_line tty pack.baudrate calls
  have taken := formatSet_speeded tty calls known
  rw [known] at ret line
  have format_ret := setSerialParity_ret tty pack.databits pack.stopbits pack.parity
    (setSerialSpeed tty.port pack.baudrate calls).2
  have format_line := setSerialParity_line tty pack.databits pack.stopbits pack.parity
    (setSerialSpeed tty.port pack.baudrate calls).2
  rw [taken] at format_ret format_line
  unfold setSerialPort
  simp only [ret, format_ret]
  rw [line] at format_line
  revert format_line
  cases formatTaken tty pack calls with
  | none => exact fun format_line => ⟨rfl, format_line⟩
  | some format => exact fun format_line => ⟨rfl, format_line⟩

end

/-! ## The whole command -/

/-- Where the line ends as it should: the speed has been set, or was there before, if the
second half succeeds; else it has not been set, or setting it changed nothing. -/
def SpeedStands (tty : Tty) (pack : SerialPack) (calls : PortCalls) : Prop :=
  ∀ code, speedCode pack.baudrate = some code →
    if (formatTaken tty pack calls).isSome then
      tty.setattr (sets calls + 1) = 0 ∨
        (tty.line calls).ispeed = code ∧ (tty.line calls).ospeed = code
    else
      tty.setattr (sets calls + 1) ≠ 0 ∨ (tty.got calls).atSpeed code = tty.line calls

section

variable {tty : Tty} {pack : SerialPack} {calls : PortCalls} {code : UInt32}

theorem formatTaken_request {format : Format} (taken : formatTaken tty pack calls = some format) :
    formatOf pack.databits pack.stopbits pack.parity = some format := by
  unfold formatTaken at taken
  split at taken
  · exact taken
  · cases taken

theorem speeded_requested_iff (known : speedCode pack.baudrate = some code) {format : Format}
    (taken : formatTaken tty pack calls = some format) (isN : Bool) :
    Requested pack (format.options isN (speeded tty calls code)) ↔
      tty.setattr (sets calls + 1) = 0 ∨
        (tty.line calls).ispeed = code ∧ (tty.line calls).ospeed = code := by
  constructor
  · intro requested
    have ispeed := requested.ispeed
    have ospeed := requested.ospeed
    rw [known] at ispeed ospeed
    by_cases done : tty.setattr (sets calls + 1) = 0
    · exact .inl done
    · simp only [Format.options, speeded, if_neg done, Option.some.injEq] at ispeed ospeed
      exact .inr ⟨ispeed.symm, ospeed.symm⟩
  · intro stands
    have speeds : (speeded tty calls code).ispeed = code ∧ (speeded tty calls code).ospeed = code := by
      unfold speeded
      split
      · exact ⟨rfl, rfl⟩
      · rename_i failed
        exact stands.resolve_left failed
    exact ⟨known.trans (congrArg some speeds.1.symm), known.trans (congrArg some speeds.2.symm),
      format, formatTaken_request taken, options_framed _ _ _⟩

theorem speeded_unchanged_iff :
    speeded tty calls code = tty.line calls ↔
      tty.setattr (sets calls + 1) ≠ 0 ∨ (tty.got calls).atSpeed code = tty.line calls := by
  unfold speeded
  split
  · rename_i done
    simp [done]
  · rename_i failed
    simp [failed]

theorem setSerialPort_allOrNothing_iff :
    AllOrNothing pack (tty.line calls) (setSerialPort tty.port pack calls).1
        (tty.line (setSerialPort tty.port pack calls).2) ↔
      SpeedStands tty pack calls := by
  unfold SpeedStands
  cases known : speedCode pack.baudrate with
  | none =>
      obtain ⟨ret, line⟩ := setSerialPort_unknown tty calls known
      rw [ret, line]
      simp only [reduceCtorEq, false_implies, implies_true, iff_true]
      exact ⟨by simp, fun _ => rfl⟩
  | some code =>
      obtain ⟨ret, line⟩ := setSerialPort_known tty calls known
      rw [ret, line]
      simp only [Option.some.injEq, forall_eq']
      cases taken : formatTaken tty pack calls with
      | none =>
          simp only [Option.elim_none, Option.isSome_none, Bool.false_eq_true, if_false]
          rw [← speeded_unchanged_iff]
          exact ⟨fun h => h.nothing (by decide), fun unchanged => ⟨by simp, fun _ => unchanged⟩⟩
      | some format =>
          simp only [Option.elim_some, Option.isSome_some, if_true]
          rw [← speeded_requested_iff known taken]
          exact ⟨fun h => h.all rfl, fun requested => ⟨fun _ => requested, by simp⟩⟩

end

/-- A settings command is all-or-nothing where its speed stands; a command that does not
come in one piece does nothing. -/
theorem serial_settings_iff (tty : Tty) (chunk : List UInt8) (calls : PortCalls) :
    AllOrNothing (.ofBytes chunk) (tty.line calls) (tcpCmdSetSerialPort tty.port chunk calls).1
        (tty.line (tcpCmdSetSerialPort tty.port chunk calls).2) ↔
      (chunk.length = serialPackLen → SpeedStands tty (.ofBytes chunk) calls) := by
  unfold tcpCmdSetSerialPort recvTcpPack
  by_cases received : chunk.length = serialPackLen
  · simp only [received, forall_const]
    exact setSerialPort_allOrNothing_iff
  · simp only [received, false_implies, iff_true]
    exact ⟨by simp, fun _ => rfl⟩

/-- A fresh tty on which the first call of `tcsetattr` fails. -/
def firstFails : Tty := { Tty.fresh with setattr := fun k => if k = 1 then -1 else 0 }

/-- The command succeeds with the old speed on the line. -/
theorem serial_settings_old_speed :
    ¬∀ (tty : Tty) (chunk : List UInt8) (calls : PortCalls),
      AllOrNothing (.ofBytes chunk) (tty.line calls) (tcpCmdSetSerialPort tty.port chunk calls).1
        (tty.line (tcpCmdSetSerialPort tty.port chunk calls).2) := by
  intro always
  have received : ∀ pack : SerialPack,
      tcpCmdSetSerialPort firstFails.port pack.bytes [] = setSerialPort firstFails.port pack [] := by
    intro pack
    rw [tcpCmdSetSerialPort, recvTcpPack, if_pos pack.bytes_length, Option.elim_some,
      pack.ofBytes_bytes]
  have settings := always firstFails (SerialPack.bytes ⟨115200, 8, 1, 110⟩) []
  rw [received, SerialPack.ofBytes_bytes] at settings
  have old_speed := (settings.all rfl).ispeed
  revert old_speed
  decide

end DvsServer.Uart.Service
