import DvsServer.Lib.FlagPatch
import DvsServer.Uart.Operate

/-!
# The format of a serial line (`uart/src/uart_operate.c`)

What the three `switch` statements of `set_serial_parity` make of the flag words, as
patches that depend on the request alone.
-/

namespace DvsServer.Uart.Operate

open DvsServer.Lib DvsServer.Uart.Command

/-! ## Requests -/

inductive DataBits where
  | seven
  | eight
deriving DecidableEq

inductive StopBits where
  | one
  | two
deriving DecidableEq

inductive Parity where
  | none
  | odd
  | even
deriving DecidableEq

/-- The letters `set_serial_parity` knows, regardless of case. -/
inductive Letter where
  | n
  | o
  | e
  | s
deriving DecidableEq

/-- A request that `set_serial_parity` accepts. -/
structure Format where
  size : DataBits
  stop : StopBits
  letter : Letter

def dataBitsOf (databits : Int32) : Option DataBits :=
  if databits = 7 then some .seven else if databits = 8 then some .eight else none

def stopBitsOf (stopbits : Int32) : Option StopBits :=
  if stopbits = 1 then some .one else if stopbits = 2 then some .two else none

def letterOf (parity : Int32) : Option Letter :=
  if isLetter parity 'n' 'N' then some .n
  else if isLetter parity 'o' 'O' then some .o
  else if isLetter parity 'e' 'E' then some .e
  else if isLetter parity 's' 'S' then some .s
  else none

def formatOf (databits stopbits parity : Int32) : Option Format :=
  (dataBitsOf databits).bind fun size => (letterOf parity).bind fun letter =>
    (stopBitsOf stopbits).map fun stop => ⟨size, stop, letter⟩

/-! ## What a request means -/

def DataBits.bits : DataBits → UInt32
  | .seven => cs7
  | .eight => cs8

def StopBits.bits : StopBits → UInt32
  | .one => 0
  | .two => cstopb

/-- `s` is for no parity, as the comment in `set_serial_parity` has it. -/
def Letter.parity : Letter → Parity
  | .n | .s => .none
  | .o => .odd
  | .e => .even

/-- The flags that tell the parity; `PARODD` tells something where `PARENB` is set. -/
def Parity.mask : Parity → UInt32
  | .none => parenb
  | .odd | .even => parenb ||| parodd

def Parity.bits : Parity → UInt32
  | .none => 0
  | .odd => parenb ||| parodd
  | .even => parenb

/-- `INPCK` -/
def Parity.check : Parity → UInt32
  | .none => 0
  | .odd | .even => inpck

/-- The line has this format. -/
structure Framed (format : Format) (line : Termios) : Prop where
  size : line.cCflag &&& csize = format.size.bits
  stop : line.cCflag &&& cstopb = format.stop.bits
  parity : line.cCflag &&& format.letter.parity.mask = format.letter.parity.bits

/-- The format and the input check are set, and no other flag is changed. -/
structure SetsFormat (format : Format) (before after : Termios) : Prop where
  framed : Framed format after
  inputCheck : after.cIflag &&& inpck = format.letter.parity.check
  cflagKept : after.cCflag &&& ~~~(csize ||| cstopb ||| format.letter.parity.mask) =
    before.cCflag &&& ~~~(csize ||| cstopb ||| format.letter.parity.mask)
  iflagKept : after.cIflag &&& ~~~inpck = before.cIflag &&& ~~~inpck

/-! ## The flag words -/

def patched (p : FlagPatch 32) (flags : UInt32) : UInt32 := ⟨p.apply flags.toBitVec⟩

def clearing (mask : UInt32) : FlagPatch 32 := .clear mask.toBitVec

def raising (mask : UInt32) : FlagPatch 32 := .raise mask.toBitVec

@[simp] theorem patched_clearing (mask flags : UInt32) :
    patched (clearing mask) flags = flags &&& ~~~mask := by
  apply UInt32.toBitVec_inj.mp
  simp [patched, clearing]

@[simp] theorem patched_raising (mask flags : UInt32) :
    patched (raising mask) flags = flags ||| mask := by
  apply UInt32.toBitVec_inj.mp
  simp [patched, raising]

@[simp] theorem patched_andThen (p q : FlagPatch 32) (flags : UInt32) :
    patched (p.andThen q) flags = patched q (patched p flags) := by
  simp [patched]

theorem patched_puts {p : FlagPatch 32} {mask bits : UInt32} (puts : p.Puts mask.toBitVec bits.toBitVec)
    (flags : UInt32) : patched p flags &&& mask = bits := by
  apply UInt32.toBitVec_inj.mp
  exact puts.apply flags.toBitVec

theorem patched_spares {p : FlagPatch 32} {mask : UInt32} (spares : p.Spares mask.toBitVec)
    (flags : UInt32) : patched p flags &&& mask = flags &&& mask := by
  apply UInt32.toBitVec_inj.mp
  exact spares.apply flags.toBitVec

/-! ## The patches of a request -/

def DataBits.cflag (size : DataBits) : FlagPatch 32 := (clearing csize).andThen (raising size.bits)

def StopBits.cflag : StopBits → FlagPatch 32
  | .one => clearing cstopb
  | .two => raising cstopb

def Letter.cflag : Letter → FlagPatch 32
  | .n => clearing parenb
  | .o => raising (parodd ||| parenb)
  | .e => (raising parenb).andThen (clearing parodd)
  | .s => (clearing parenb).andThen (clearing cstopb)

def Letter.iflag : Letter → FlagPatch 32
  | .n => clearing inpck
  | .o | .e => raising inpck
  | .s => raising 0

def Format.cflag (format : Format) : FlagPatch 32 :=
  (format.size.cflag.andThen format.letter.cflag).andThen format.stop.cflag

/-- With the test `parity != 'n'` behind the `switch` statements. -/
def Format.iflag (format : Format) (isN : Bool) : FlagPatch 32 :=
  format.letter.iflag.andThen (if isN then raising 0 else raising inpck)

theorem setDatabits_eq (options : Termios) (databits : Int32) :
    setDatabits options databits = (dataBitsOf databits).map fun size =>
      { options with cCflag := patched size.cflag options.cCflag } := by
  unfold setDatabits dataBitsOf
  split
  · simp [DataBits.cflag, DataBits.bits]
  · split
    · simp [DataBits.cflag, DataBits.bits]
    · rfl

theorem setParity_eq (options : Termios) (parity : Int32) :
    setParity options parity = (letterOf parity).map fun letter =>
      { options with
        cCflag := patched letter.cflag options.cCflag
        cIflag := patched letter.iflag options.cIflag } := by
  unfold setParity letterOf
  split
  · simp [Letter.cflag, Letter.iflag]
  · split
    · simp [Letter.cflag, Letter.iflag]
    · split
      · simp [Letter.cflag, Letter.iflag]
      · split
        · simp [Letter.cflag, Letter.iflag]
        · rfl

theorem setStopbits_eq (options : Termios) (stopbits : Int32) :
    setStopbits options stopbits = (stopBitsOf stopbits).map fun stop =>
      { options with cCflag := patched stop.cflag options.cCflag } := by
  unfold setStopbits stopBitsOf
  split
  · simp [StopBits.cflag]
  · split
    · simp [StopBits.cflag]
    · rfl

/-- A request is accepted whatever the flags are, and changes them by its patches. -/
theorem formatted_eq (options : Termios) (databits stopbits parity : Int32) :
    formatted options databits stopbits parity = (formatOf databits stopbits parity).map fun format =>
      { options with
        cCflag := patched format.cflag options.cCflag
        cIflag := patched (format.iflag (parity.toInt == 'n'.toNat)) options.cIflag
        vtime := 150
        vmin := 0 } := by
  unfold formatted formatOf
  rw [setDatabits_eq]
  cases dataBitsOf databits with
  | none => rfl
  | some size =>
      simp only [Option.map_some, Option.bind_eq_bind, Option.bind_some, setParity_eq]
      cases letterOf parity with
      | none => rfl
      | some letter =>
          simp only [Option.map_some, Option.bind_some, setStopbits_eq]
          cases stopBitsOf stopbits with
          | none => rfl
          | some stop =>
              simp only [Option.map_some, Option.bind_some, Format.cflag, Format.iflag,
                patched_andThen, beq_iff_eq]
              split
              · simp
              · rename_i same
                simp [not_not.mp same]

/-! ## What the patches put and spare -/

theorem DataBits.puts_csize (size : DataBits) : size.cflag.Puts csize.toBitVec size.bits.toBitVec := by
  cases size with
  | seven => exact ⟨rfl, rfl⟩
  | eight => exact ⟨rfl, rfl⟩

theorem StopBits.puts_cstopb (stop : StopBits) : stop.cflag.Puts cstopb.toBitVec stop.bits.toBitVec := by
  cases stop with
  | one => exact ⟨rfl, rfl⟩
  | two => exact ⟨rfl, rfl⟩

theorem StopBits.spares_csize (stop : StopBits) : stop.cflag.Spares csize.toBitVec := by
  cases stop with
  | one => exact ⟨rfl, rfl⟩
  | two => exact ⟨rfl, rfl⟩

theorem StopBits.spares_parity (stop : StopBits) (parity : Parity) :
    stop.cflag.Spares parity.mask.toBitVec := by
  cases stop with
  | one => cases parity <;> exact ⟨rfl, rfl⟩
  | two => cases parity <;> exact ⟨rfl, rfl⟩

theorem Letter.spares_csize (letter : Letter) : letter.cflag.Spares csize.toBitVec := by
  cases letter with
  | n => exact ⟨rfl, rfl⟩
  | o => exact ⟨rfl, rfl⟩
  | e => exact ⟨rfl, rfl⟩
  | s => exact ⟨rfl, rfl⟩

theorem Letter.puts_parity (letter : Letter) :
    letter.cflag.Puts letter.parity.mask.toBitVec letter.parity.bits.toBitVec := by
  cases letter with
  | n => exact ⟨rfl, rfl⟩
  | o => exact ⟨rfl, rfl⟩
  | e => exact ⟨rfl, rfl⟩
  | s => exact ⟨rfl, rfl⟩

theorem DataBits.spares_others (size : DataBits) (parity : Parity) :
    size.cflag.Spares (~~~(csize ||| cstopb ||| parity.mask)).toBitVec := by
  cases size with
  | seven => cases parity <;> exact ⟨rfl, rfl⟩
  | eight => cases parity <;> exact ⟨rfl, rfl⟩

theorem StopBits.spares_others (stop : StopBits) (parity : Parity) :
    stop.cflag.Spares (~~~(csize ||| cstopb ||| parity.mask)).toBitVec := by
  cases stop with
  | one => cases parity <;> exact ⟨rfl, rfl⟩
  | two => cases parity <;> exact ⟨rfl, rfl⟩

theorem Letter.spares_others (letter : Letter) :
    letter.cflag.Spares (~~~(csize ||| cstopb ||| letter.parity.mask)).toBitVec := by
  cases letter with
  | n => exact ⟨rfl, rfl⟩
  | o => exact ⟨rfl, rfl⟩
  | e => exact ⟨rfl, rfl⟩
  | s => exact ⟨rfl, rfl⟩

theorem Letter.iflag_spares (letter : Letter) : letter.iflag.Spares (~~~inpck).toBitVec := by
  cases letter with
  | n => exact ⟨rfl, rfl⟩
  | o => exact ⟨rfl, rfl⟩
  | e => exact ⟨rfl, rfl⟩
  | s => exact ⟨rfl, rfl⟩

theorem Format.iflag_spares (format : Format) (isN : Bool) :
    (format.iflag isN).Spares (~~~inpck).toBitVec := by
  apply format.letter.iflag_spares.andThen
  cases isN with
  | true => exact ⟨rfl, rfl⟩
  | false => exact ⟨rfl, rfl⟩

/-- Behind `if (parity != 'n')` the input check is on for every other letter. -/
theorem Format.iflag_puts (format : Format) : (format.iflag false).Puts inpck.toBitVec inpck.toBitVec :=
  .after _ ⟨rfl, rfl⟩

theorem Format.iflag_puts_n {format : Format} (isN : format.letter = .n) :
    (format.iflag true).Puts inpck.toBitVec 0 := by
  unfold Format.iflag
  rw [isN]
  exact ⟨rfl, rfl⟩

end DvsServer.Uart.Operate
