import Mathlib.Algebra.Ring.Int.Defs
import Mathlib.Algebra.Ring.Nat
import Mathlib.Logic.Basic

/-!
# TCP commands (`network/inc/command.h`)

The packets of the control connection.  Both structures are packed and
little-endian.
-/

namespace DvsServer.Network.Command

abbrev tcpCmdHeaderLen : Nat := 8

def tcpCmdHeaderStr : List UInt8 := [0xAA, 0xA1, 0xA2, 0xA3, 0xA4, 0xA5, 0xA6, 0xFF]

def dvsResolutionCif : UInt32 := 0

def dvsResolutionD1 : UInt32 := 1

inductive ServerCMD where
  | resetBoard
  | addClient
  | delClient
  | openChannel
  | closeChannel
  | getResolution
  | setResolution
  | setBitrate
  | onAlarmout
  | offAlarmout
  | getAlarmout
  | getAlarmin
  | onAudio
  | offAudio
deriving DecidableEq

/-- The command a `switch` over the enumeration finds for a code, when it has one. -/
def ServerCMD.ofCode (code : UInt32) : Option ServerCMD :=
  match code.toNat with
  | 0 => some .resetBoard
  | 1 => some .addClient
  | 2 => some .delClient
  | 3 => some .openChannel
  | 4 => some .closeChannel
  | 5 => some .getResolution
  | 6 => some .setResolution
  | 7 => some .setBitrate
  | 8 => some .onAlarmout
  | 9 => some .offAlarmout
  | 10 => some .getAlarmout
  | 11 => some .getAlarmin
  | 12 => some .onAudio
  | 13 => some .offAudio
  | _ => none

inductive ReturnCMD where
  | success
  | fail
  | timeout
  | invlidHeader
  | invlidCmd
  | invlidPrm
deriving DecidableEq

/-- `sizeof(ServerPack)`: the header, the command and the largest parameters. -/
abbrev serverPackLen : Nat := tcpCmdHeaderLen + 4 + 8

/-- `sizeof(ReturnPack)` -/
abbrev returnPackLen : Nat := tcpCmdHeaderLen + 4 + 4

/-- A packet as `recv` stores it. -/
structure ServerPack where
  bytes : List UInt8
  length_eq : bytes.length = serverPackLen

namespace ServerPack

def byte (pack : ServerPack) (i : Nat) : UInt8 := pack.bytes.getD i 0

def word (pack : ServerPack) (i : Nat) : UInt32 :=
  UInt32.ofNat ((pack.byte i).toNat + 2 ^ 8 * (pack.byte (i + 1)).toNat +
    2 ^ 16 * (pack.byte (i + 2)).toNat + 2 ^ 24 * (pack.byte (i + 3)).toNat)

def cmdHeader (pack : ServerPack) : List UInt8 := pack.bytes.take tcpCmdHeaderLen

def serverCMD (pack : ServerPack) : UInt32 := pack.word tcpCmdHeaderLen

def parameters (pack : ServerPack) : List UInt8 := pack.bytes.drop (tcpCmdHeaderLen + 4)

/-- `Parameters.ListenPort.videoport` -/
def videoport (pack : ServerPack) : Int := (pack.word (tcpCmdHeaderLen + 4)).toInt32.toInt

/-- `Parameters.ListenPort.audioport` -/
def audioport (pack : ServerPack) : Int := (pack.word (tcpCmdHeaderLen + 8)).toInt32.toInt

/-- `Parameters.PlayPort.chId` -/
def chId (pack : ServerPack) : UInt8 := pack.byte (tcpCmdHeaderLen + 4)

/-- `Parameters.Resolution.resolution` -/
def resolution (pack : ServerPack) : UInt32 := pack.word (tcpCmdHeaderLen + 4)

end ServerPack

/-- The reply; `resolution` is the only parameter the server ever sets. -/
structure ReturnPack where
  cmdHeader : List UInt8
  returnCMD : ReturnCMD
  resolution : UInt32
deriving DecidableEq

end DvsServer.Network.Command
