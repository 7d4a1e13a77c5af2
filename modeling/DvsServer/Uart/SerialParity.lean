import DvsServer.Uart.Tty

/-!
# The line format (`set_serial_parity`, `uart/src/uart_operate.c`)

What a successful call leaves on the line of a tty.
-/

namespace DvsServer.Uart.Operate

open DvsServer.Uart.Command

/-! ## The options for a format -/

theorem options_framed (format : Format) (isN : Bool) (found : Termios) :
    Framed format (format.options isN found) where
  size := patched_puts ((format.size.puts_csize.andThen format.letter.spares_csize).andThen
    format.stop.spares_csize) found.cCflag
  stop := patched_puts (format.stop.puts_cstopb.after _) found.cCflag
  parity := patched_puts ((format.letter.puts_parity.after _).andThen
    (format.stop.spares_parity _)) found.cCflag

theorem options_cflagKept (format : Format) (isN : Bool) (found : Termios) :
    (format.options isN found).cCflag &&& ~~~(csize ||| cstopb ||| format.letter.parity.mask) =
      found.cCflag &&& ~~~(csize ||| cstopb ||| format.letter.parity.mask) :=
  patched_spares (((format.size.spares_others _).andThen format.letter.spares_others).andThen
    (format.stop.spares_others _)) found.cCflag

theorem options_iflagKept (format : Format) (isN : Bool) (found : Termios) :
    (format.options isN found).cIflag &&& ~~~inpck = found.cIflag &&& ~~~inpck :=
  patched_spares (format.iflag_spares isN) found.cIflag

/-- All of the format is set but, maybe, the input check. -/
theorem options_setsFormat_iff (format : Format) (isN : Bool) (found : Termios) :
    SetsFormat format found (format.options isN found) ↔
      (format.options isN found).cIflag &&& inpck = format.letter.parity.check :=
  ⟨SetsFormat.inputCheck, fun inputCheck =>
    ⟨options_framed _ _ _, inputCheck, options_cflagKept _ _ _, options_iflagKept _ _ _⟩⟩

/-! ## Letters -/

theorem isLetter_iff {parity : Int32} {lower upper : Char} :
    isLetter parity lower upper = true ↔
      parity.toInt = lower.toNat ∨ parity.toInt = upper.toNat := by
  simp [isLetter]

/-- The letters for no parity other than `n`. -/
theorem letterOf_unchecked {parity : Int32} {letter : Letter} (known : letterOf parity = some letter)
    (isN : parity.toInt ≠ 'n'.toNat) :
    letter.parity ≠ .none ↔
      parity.toInt ≠ 'N'.toNat ∧ parity.toInt ≠ 'S'.toNat ∧ parity.toInt ≠ 's'.toNat := by
  simp only [letterOf, isLetter_iff, Char.reduceToNat, Nat.cast_ofNat] at known isN ⊢
  split at known
  · cases known
    simp [Letter.parity]
    omega
  · split at known
    · cases known
      simp [Letter.parity]
      omega
    · split at known
      · cases known
        simp [Letter.parity]
        omega
      · split at known
        · cases known
          simp [Letter.parity]
          omega
        · cases known

theorem letterOf_n {parity : Int32} (isN : parity.toInt = 'n'.toNat) : letterOf parity = some .n :=
  if_pos (isLetter_iff.mpr (.inl isN))

/-! ## One call of `set_serial_parity` -/

variable {tty : Tty} {databits stopbits parity : Int32} {calls after : PortCalls}

theorem formatOf_letter {format : Format} (known : formatOf databits stopbits parity = some format) :
    letterOf parity = some format.letter := by
  simp only [formatOf, Option.bind_eq_some_iff, Option.map_eq_some_iff] at known
  obtain ⟨size, -, letter, letter_eq, stop, -, rfl⟩ := known
  exact letter_eq

/-- What a successful call has found and done. -/
theorem setSerialParity_succeeded
    (succeeded : setSerialParity tty.port databits stopbits parity calls = (0, after)) :
    ∃ format, formatOf databits stopbits parity = some format ∧
      tty.line after = format.options (parity.toInt == 'n'.toNat) (tty.line calls) := by
  have ret := setSerialParity_ret tty databits stopbits parity calls
  have line := setSerialParity_line tty databits stopbits parity calls
  rw [succeeded] at ret line
  cases set : formatSet tty databits stopbits parity calls with
  | none =>
      rw [set] at ret
      cases ret
  | some format =>
      rw [set] at line
      refine ⟨format, ?_, line⟩
      unfold formatSet at set
      split at set
      · exact set
      · cases set

/-- A successful call sets the format that was asked for unless the parity is given as
`N`, `S` or `s`; then it turns the input check on. -/
theorem line_format_iff
    (succeeded : setSerialParity tty.port databits stopbits parity calls = (0, after)) :
    (∃ format, formatOf databits stopbits parity = some format ∧
        SetsFormat format (tty.line calls) (tty.line after)) ↔
      parity.toInt ≠ 'N'.toNat ∧ parity.toInt ≠ 'S'.toNat ∧ parity.toInt ≠ 's'.toNat := by
  obtain ⟨format, known, line⟩ := setSerialParity_succeeded succeeded
  have letter := formatOf_letter known
  rw [known, line]
  simp only [Option.some.injEq, exists_eq_left', options_setsFormat_iff]
  by_cases isN : parity.toInt = 'n'.toNat
  · have letter_n : format.letter = .n := by
      rw [letterOf_n isN] at letter
      exact (Option.some.inj letter).symm
    rw [beq_iff_eq.mpr isN]
    have unchecked := patched_puts (format.iflag_puts_n letter_n) (tty.line calls).cIflag
    rw [letter_n]
    simp [isN]
    exact unchecked
  · rw [beq_eq_false_iff_ne.mpr isN]
    have checked := patched_puts format.iflag_puts (tty.line calls).cIflag
    rw [← letterOf_unchecked letter isN]
    change patched _ _ &&& inpck = _ ↔ _
    rw [checked]
    cases format.letter.parity with
    | none => simp [Parity.check, inpck]
    | odd => simp [Parity.check]
    | even => simp [Parity.check]

/-- Eight data bits, one stop bit, even parity given as `E`. -/
theorem line_format_even :
    ∃ format, formatOf 8 1 69 = some format ∧
      SetsFormat format (Tty.fresh.line []) (Tty.fresh.line (setSerialParity Tty.fresh.port 8 1 69 []).2) :=
  (line_format_iff (Prod.ext rfl rfl : setSerialParity Tty.fresh.port 8 1 69 [] = (0, _))).mpr
    (by decide)

/-- No parity given as `N` leaves the input check on. -/
theorem line_format_unchecked :
    ¬∀ (tty : Tty) (databits stopbits parity : Int32) (calls after : PortCalls),
      setSerialParity tty.port databits stopbits parity calls = (0, after) →
        ∃ format, formatOf databits stopbits parity = some format ∧
          SetsFormat format (tty.line calls) (tty.line after) := by
  intro always
  obtain ⟨format, known, sets⟩ := always Tty.fresh 8 1 78 [] _ (Prod.ext rfl rfl)
  have checked : format = ⟨.eight, .one, .n⟩ := (Option.some.inj known).symm
  rw [checked] at sets
  have clear := sets.inputCheck
  revert clear
  decide

end DvsServer.Uart.Operate
