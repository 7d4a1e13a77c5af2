import Mathlib.Algebra.Ring.Int.Defs
import Mathlib.Algebra.Ring.Nat
import Mathlib.Logic.Basic

/-!
# UART commands (`uart/inc/uart_command.h`)

The packets of the UART connection.  The structures are packed and little-endian.
-/

namespace DvsServer.Uart.Command

abbrev tcpCmdHeaderLen : Nat := 8

abbrev tcpCmdPosition : Nat := tcpCmdHeaderLen - 1

def dvsTcpCmdPtz : UInt8 := 0

def dvsTcpCmdUart : UInt8 := 1

def tcpCmdHeaderStr : List UInt8 := [0xBB, 0xB1, 0xB2, 0xB3, 0xB4, 0xB5, 0xFF, 0x00]

abbrev ptzCmdMaxLen : Nat := 8

structure PtzCmdPack where
  cmd : Vector UInt8 ptzCmdMaxLen
  len : Int32
deriving DecidableEq

structure SerialPack where
  baudrate : Int32
  databits : Int32
  stopbits : Int32
  parity : Int32
deriving DecidableEq

/-- `sizeof(PtzCmdPack)` -/
abbrev ptzCmdPackLen : Nat := ptzCmdMaxLen + 4

/-- `sizeof(SerialPack)` -/
abbrev serialPackLen : Nat := 4 + 4 + 4 + 4

def byte (bytes : List UInt8) (i : Nat) : UInt8 := bytes.getD i 0

/-- The `int` at an offset. -/
def int (bytes : List UInt8) (i : Nat) : Int32 :=
  (UInt32.ofNat ((byte bytes i).toNat + 2 ^ 8 * (byte bytes (i + 1)).toNat +
    2 ^ 16 * (byte bytes (i + 2)).toNat + 2 ^ 24 * (byte bytes (i + 3)).toNat)).toInt32

/-- The structure in a buffer of `ptzCmdPackLen` bytes. -/
def PtzCmdPack.ofBytes (bytes : List UInt8) : PtzCmdPack where
  cmd := Vector.ofFn fun i => byte bytes i
  len := int bytes ptzCmdMaxLen

/-- The structure in a buffer of `serialPackLen` bytes. -/
def SerialPack.ofBytes (bytes : List UInt8) : SerialPack where
  baudrate := int bytes 0
  databits := int bytes 4
  stopbits := int bytes 8
  parity := int bytes 12

/-! ### Every packet has bytes -/

/-- The bytes of an `int`. -/
def intBytes (n : Int32) : List UInt8 :=
  let value := n.toUInt32.toNat
  [UInt8.ofNat value, UInt8.ofNat (value / 2 ^ 8), UInt8.ofNat (value / 2 ^ 16), UInt8.ofNat (value / 2 ^ 24)]

def SerialPack.bytes (pack : SerialPack) : List UInt8 :=
  intBytes pack.baudrate ++ intBytes pack.databits ++ intBytes pack.stopbits ++ intBytes pack.parity

def PtzCmdPack.bytes (pack : PtzCmdPack) : List UInt8 := pack.cmd.toList ++ intBytes pack.len

theorem int_intBytes (n : Int32) : int (intBytes n) 0 = n := by
  have bound := n.toUInt32.toNat_lt
  have value : n.toUInt32.toNat % 2 ^ 8 + 2 ^ 8 * (n.toUInt32.toNat / 2 ^ 8 % 2 ^ 8) +
      2 ^ 16 * (n.toUInt32.toNat / 2 ^ 16 % 2 ^ 8) + 2 ^ 24 * (n.toUInt32.toNat / 2 ^ 24 % 2 ^ 8) =
        n.toUInt32.toNat := by omega
  simp only [int, intBytes, byte, List.getD_cons_zero, List.getD_cons_succ, UInt8.toNat_ofNat', zero_add, value]
  simp

theorem SerialPack.ofBytes_bytes (pack : SerialPack) : SerialPack.ofBytes pack.bytes = pack := by
  change SerialPack.mk (int (intBytes pack.baudrate) 0) (int (intBytes pack.databits) 0)
    (int (intBytes pack.stopbits) 0) (int (intBytes pack.parity) 0) = pack
  simp only [int_intBytes]

theorem SerialPack.bytes_length (pack : SerialPack) : pack.bytes.length = serialPackLen := rfl

theorem int_append (front : List UInt8) (n : Int32) : int (front ++ intBytes n) front.length = n := by
  have shift : ∀ i, byte (front ++ intBytes n) (front.length + i) = byte (intBytes n) i := by
    intro i
    simp [byte, List.getElem?_append_right]
  have here := shift 0
  rw [Nat.add_zero] at here
  unfold int
  rw [here, shift 1, shift 2, shift 3]
  exact int_intBytes n

theorem PtzCmdPack.bytes_length (pack : PtzCmdPack) : pack.bytes.length = ptzCmdPackLen := by
  simp [bytes, intBytes]

theorem PtzCmdPack.ofBytes_bytes (pack : PtzCmdPack) : PtzCmdPack.ofBytes pack.bytes = pack := by
  have len := int_append pack.cmd.toList pack.len
  rw [Vector.length_toList] at len
  have cmd : (Vector.ofFn fun i : Fin ptzCmdMaxLen => byte pack.bytes i) = pack.cmd := by
    apply Vector.ext
    intro i bound
    have inside : i < pack.cmd.toList.length := by simpa using bound
    simp [byte, bytes, List.getElem?_append_left inside, Vector.getElem?_eq_getElem bound]
  exact congrArg₂ PtzCmdPack.mk cmd len

end DvsServer.Uart.Command
