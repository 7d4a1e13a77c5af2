import DvsServer.Lib.SlotTable
import DvsServer.Uart.Service

/-!
# The camera command (`tcp_cmd_exec_ptz`, `uart/src/uart_service.c`)

Which bytes of the packet the command reads and which of them go to the serial port.
-/

namespace DvsServer.Uart.Service

open DvsServer.Lib DvsServer.Uart.Command DvsServer.Uart.Operate

/-- What `write` has taken of the command when it returns; undefined where that is more
than `cmd` holds. -/
def takenBytes (pack : PtzCmdPack) (ret : Int) : Option (List UInt8) :=
  if min ret.toNat (sizeOfInt pack.len) ≤ ptzCmdMaxLen then
    some (pack.cmd.toList.take (min ret.toNat (sizeOfInt pack.len)))
  else none

/-- The result of the `write` call. -/
def writeRet (port : Port) (pack : PtzCmdPack) (calls : PortCalls) : Int :=
  (sendSerialData port pack.cmd pack.len calls).1

/-- The bytes that `tcp_cmd_exec_ptz` gives the serial port behind its `recv`. -/
def ptzBytes (port : Port) (pack : PtzCmdPack) (calls : PortCalls) : Option (List UInt8) :=
  (printLoop pack.cmd pack.len.toInt.toNat 0).bind fun _ =>
    takenBytes pack (writeRet port pack calls)

def tcpPtzBytes (port : Port) (chunk : List UInt8) (calls : PortCalls) : Option (List UInt8) :=
  (recvTcpPack ptzCmdPackLen chunk).elim (some []) fun bytes => ptzBytes port (.ofBytes bytes) calls

/-- The length that the packet states is one of its command. -/
def ValidLen (pack : PtzCmdPack) : Prop := 0 ≤ pack.len.toInt ∧ pack.len.toInt ≤ ptzCmdMaxLen

/-- The command that the packet states. -/
def commandOf (pack : PtzCmdPack) : List UInt8 := pack.cmd.toList.take pack.len.toInt.toNat

/-- The command's bytes or nothing, and a result that tells which. -/
structure ExactBytes (pack : PtzCmdPack) (bytes : List UInt8) (ret : Int) : Prop where
  own : ValidLen pack → bytes <+: commandOf pack
  whole : ret = 0 → bytes = commandOf pack
  nothing : ¬ValidLen pack → bytes = [] ∧ ret < 0

/-! ## What is read -/

theorem ptzBytes_eq_some_iff {port : Port} {pack : PtzCmdPack} {calls : PortCalls} {bytes : List UInt8} :
    ptzBytes port pack calls = some bytes ↔
      pack.len.toInt ≤ ptzCmdMaxLen ∧ takenBytes pack (writeRet port pack calls) = some bytes := by
  have loop : (printLoop pack.cmd pack.len.toInt.toNat 0).isSome ↔ pack.len.toInt ≤ ptzCmdMaxLen := by
    rw [printLoop_isSome_iff _ _ _ (Nat.zero_le _), Nat.zero_add, Int.toNat_le]
  unfold ptzBytes
  rw [← loop]
  cases printLoop pack.cmd pack.len.toInt.toNat 0 with
  | none => simp
  | some _ => simp

/-! ## What is written -/

theorem execPtz_ret (port : Port) {pack : PtzCmdPack} (calls : PortCalls)
    (le : pack.len.toInt ≤ ptzCmdMaxLen) :
    ∃ after, execPtz port pack calls =
      some (if writeRet port pack calls = pack.len.toInt then 0 else -1, after) := by
  obtain ⟨shown, loop⟩ := Option.isSome_iff_exists.mp
    ((printLoop_isSome_iff pack.cmd pack.len.toInt.toNat 0 (Nat.zero_le _)).mpr (by omega))
  refine ⟨(sendSerialData port pack.cmd pack.len calls).2, ?_⟩
  rw [execPtz, loop, Option.map_some]
  change some (if writeRet port pack calls ≠ pack.len.toInt then (-1, _) else (0, _)) = _
  by_cases same : writeRet port pack calls = pack.len.toInt
  · rw [if_pos same, if_neg (not_not_intro same)]
    rfl
  · rw [if_neg same, if_pos same]
    rfl

/-- With a length of its own a packet gives no byte but its own. -/
theorem takenBytes_own {pack : PtzCmdPack} (valid : ValidLen pack) (ret : Int) :
    takenBytes pack ret = some (pack.cmd.toList.take (min ret.toNat pack.len.toInt.toNat)) := by
  obtain ⟨nonneg, le⟩ := valid
  have count : sizeOfInt pack.len = pack.len.toInt.toNat := by
    unfold sizeOfInt
    rw [Int.emod_eq_of_lt nonneg (Int.lt_trans pack.len.toInt_lt (by decide))]
  rw [takenBytes, count, if_pos (Nat.le_trans (Nat.min_le_right _ _) (Int.toNat_le.mpr le))]

/-- Where the length is negative, `write` is asked for more than `cmd` holds. -/
theorem ptzCmdMaxLen_lt_sizeOfInt {len : Int32} (neg : len.toInt < 0) : ptzCmdMaxLen < sizeOfInt len := by
  have le := len.le_toInt
  unfold sizeOfInt ptzCmdMaxLen
  omega

theorem takenBytes_eq_nil_iff {pack : PtzCmdPack} (neg : pack.len.toInt < 0) (ret : Int) :
    takenBytes pack ret = some [] ↔ ret ≤ 0 := by
  have count := ptzCmdMaxLen_lt_sizeOfInt neg
  unfold takenBytes
  split
  · simp only [Option.some.injEq, List.take_eq_nil_iff, Vector.toList_eq_nil_iff]
    omega
  · rename_i more
    simp
    omega

/-- The command is executed and gives its own bytes or nothing. -/
def IsExact (port : Port) (pack : PtzCmdPack) (calls : PortCalls) : Prop :=
  ∃ bytes ret after, ptzBytes port pack calls = some bytes ∧
    execPtz port pack calls = some (ret, after) ∧ ExactBytes pack bytes ret

theorem isExact_of_valid {port : Port} {pack : PtzCmdPack} {calls : PortCalls} (valid : ValidLen pack) :
    IsExact port pack calls := by
  obtain ⟨after, done⟩ := execPtz_ret port calls valid.2
  refine ⟨_, _, after, ptzBytes_eq_some_iff.mpr ⟨valid.2, takenBytes_own valid _⟩, done, ?_⟩
  constructor
  · intro _
    exact List.take_prefix_take_left (Nat.min_le_right _ _)
  · intro returned
    split at returned
    · rename_i all
      rw [all, Nat.min_self]
      rfl
    · cases returned
  · intro invalid
    exact absurd valid invalid

/-- The `write` call of a negative length fails, and not with that very number. -/
def WriteRefused (port : Port) (pack : PtzCmdPack) (calls : PortCalls) : Prop :=
  pack.len.toInt < 0 ∧ writeRet port pack calls ≤ 0 ∧ writeRet port pack calls ≠ pack.len.toInt

theorem isExact_iff {port : Port} {pack : PtzCmdPack} {calls : PortCalls} (invalid : ¬ValidLen pack) :
    IsExact port pack calls ↔ WriteRefused port pack calls := by
  constructor
  · rintro ⟨bytes, ret, after, given, done, isExact⟩
    obtain ⟨rfl, failed⟩ := isExact.nothing invalid
    obtain ⟨le, taken⟩ := ptzBytes_eq_some_iff.mp given
    have neg : pack.len.toInt < 0 := by
      by_contra nonneg
      exact invalid ⟨Int.not_lt.mp nonneg, le⟩
    refine ⟨neg, (takenBytes_eq_nil_iff neg _).mp taken, ?_⟩
    intro same
    obtain ⟨after', done'⟩ := execPtz_ret port calls le
    rw [done', if_pos same] at done
    cases Option.some.inj done
    cases failed
  · rintro ⟨neg, refused, differs⟩
    have le : pack.len.toInt ≤ ptzCmdMaxLen := by omega
    obtain ⟨after, done⟩ := execPtz_ret port calls le
    rw [if_neg differs] at done
    exact ⟨[], -1, after, ptzBytes_eq_some_iff.mpr ⟨le, (takenBytes_eq_nil_iff neg _).mpr refused⟩,
      done, fun _ => List.nil_prefix, by simp, fun _ => ⟨rfl, by decide⟩⟩

/-! ## The whole command -/

/-- The command gives its own bytes or nothing where the packet states a length of its own,
or a negative one that `write` refuses. -/
theorem ptz_command_iff (port : Port) (chunk : List UInt8) (calls : PortCalls) :
    (∃ bytes ret after, tcpPtzBytes port chunk calls = some bytes ∧
        tcpCmdExecPtz port chunk calls = some (ret, after) ∧
        ExactBytes (.ofBytes chunk) bytes ret) ↔
      (chunk.length = ptzCmdPackLen →
        ValidLen (.ofBytes chunk) ∨ WriteRefused port (.ofBytes chunk) calls) := by
  unfold tcpPtzBytes tcpCmdExecPtz recvTcpPack
  by_cases received : chunk.length = ptzCmdPackLen
  · simp only [received, forall_const]
    by_cases valid : ValidLen (.ofBytes chunk)
    · simp only [valid, true_or, iff_true]
      exact isExact_of_valid valid
    · simp only [valid, false_or]
      exact isExact_iff valid
  · simp only [received, false_implies, iff_true]
    exact ⟨[], -1, calls, rfl, rfl, fun _ => List.nil_prefix, by simp, fun _ => ⟨rfl, by simp⟩⟩

/-- A port that refuses every `write`. -/
def refusing : Port where
  tcgetattr _ := (0, ⟨0o15, 0o15, 0, 0, 0, 0, 0, 0, []⟩)
  tcsetattr _ := 0
  write _ := -1

/-- The length -1 is what `write` returns: the command succeeds and has written nothing. -/
theorem ptz_command_minus_one :
    ¬∀ (port : Port) (chunk : List UInt8) (calls : PortCalls),
      ∃ bytes ret after, tcpPtzBytes port chunk calls = some bytes ∧
        tcpCmdExecPtz port chunk calls = some (ret, after) ∧
        ExactBytes (.ofBytes chunk) bytes ret := by
  intro always
  have received : ∀ pack : PtzCmdPack,
      tcpCmdExecPtz refusing pack.bytes [] = execPtz refusing pack [] := by
    intro pack
    rw [tcpCmdExecPtz, recvTcpPack, if_pos pack.bytes_length, Option.elim_some, pack.ofBytes_bytes]
  obtain ⟨bytes, ret, after, -, done, isExact⟩ :=
    always refusing (PtzCmdPack.bytes ⟨.replicate _ 0, -1⟩) []
  rw [received] at done
  rw [PtzCmdPack.ofBytes_bytes] at isExact
  have failed := (isExact.nothing (fun valid => absurd valid.1 (by decide))).2
  have succeeds : (execPtz refusing ⟨.replicate _ 0, -1⟩ []).map Prod.fst = some 0 := by decide
  rw [done] at succeeds
  cases Option.some.inj succeeds
  cases failed

end DvsServer.Uart.Service
