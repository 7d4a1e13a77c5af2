import DvsServer.Network.OwnSlot
import Mathlib.Order.Basic
import Mathlib.Data.Nat.Find

/-!
# The end of a connection

When the peer has closed the connection, `recv` returns zero and leaves `errno`
alone.  `tcpServerThrFxn` looks at `errno` all the same, so a value that an
earlier call left there decides whether the loop ends.
-/

namespace DvsServer.Network.ServerIf

open DvsServer.Lib DvsServer.Core.Session DvsServer.Network.Command

structure Line where
  thread : TcpThread
  errno : Errno

/-- The answers of a pass, with what a failed call behind `recv` left in `errno`. -/
structure LineTurn where
  turn : Turn
  failed : Option Errno

/-- A pass; a `recv` that succeeds keeps `errno`. -/
def linePass (line : Line) (answers : LineTurn) : Option (List Call × Line) :=
  if 0 ≤ answers.turn.recv.returnBytes ∧ answers.turn.errno ≠ line.errno then none
  else
    (tcpPass line.thread answers.turn).map fun (calls, thread) =>
      (calls, ⟨thread, answers.failed.getD answers.turn.errno⟩)

/-- The values of `errno` at which the loop calls `recv` again. -/
def retried (errno : Errno) : Bool := errno == .eintr || errno == .ewouldblock || errno == .eagain

/-- What the calls of a history have left in `errno`. -/
def errnoLeft (initial : Errno) : List (LineTurn × List Call) → Errno
  | [] => initial
  | (answers, _) :: before =>
      answers.failed.getD
        (if answers.turn.recv.returnBytes < 0 then answers.turn.errno else errnoLeft initial before)

/-! ## A closed peer -/

/-- The answers of a pass once the peer has closed the connection. -/
def closedTurn (quit : Bool) (errno : Errno) : LineTurn :=
  ⟨{ quit, recv := .stored [], errno, headerSent := 0, added := .noSlot, resolution := 0 }, none⟩

/-- The line after `n` further passes, as long as the thread makes them. -/
def closedPasses (quits : Nat → Bool) (line : Line) : Nat → Line
  | 0 => line
  | n + 1 =>
      let before := closedPasses quits line n
      ((linePass before (closedTurn (quits n) before.errno)).map Prod.snd).getD before

/-- After finitely many passes one leaves the loop and runs the exit path. -/
def EndsLoop (quits : Nat → Bool) (line : Line) : Prop :=
  ∃ n, (closedPasses quits line n).thread.left = false ∧
    linePass (closedPasses quits line n) (closedTurn (quits n) (closedPasses quits line n).errno) =
      some ((exitPath (closedPasses quits line n).thread).1,
        ⟨(closedPasses quits line n).thread.leave, (closedPasses quits line n).errno⟩)

theorem retried_eq_false {errno : Errno} :
    retried errno = false ↔ errno ≠ .eintr ∧ errno ≠ .ewouldblock ∧ errno ≠ .eagain := by
  cases errno <;> simp [retried]

theorem tcpPass_nothing {t : TcpThread} {turn : Turn} (running : t.left = false)
    (noPack : turn.recv.pack = none) (nothing : turn.recv.returnBytes ≤ 0) :
    tcpPass t turn =
      if turn.quit = true ∨ t.clientQuit = true ∨ retried turn.errno = false then some (exitPath t)
      else some ([], t) := by
  rw [tcpPass, running, if_neg Bool.false_ne_true, noPack]
  by_cases asked : turn.quit = true ∨ t.clientQuit = true
  · have ends : turn.quit = true ∨ t.clientQuit = true ∨ retried turn.errno = false := by tauto
    rw [if_pos ends, if_pos ((Bool.or_eq_true _ _).mpr asked)]
  · rw [if_neg fun both => asked ((Bool.or_eq_true _ _).mp both)]
    by_cases gone : retried turn.errno = false
    · have ends : turn.quit = true ∨ t.clientQuit = true ∨ retried turn.errno = false := by tauto
      rw [if_pos ends]
      exact if_pos ⟨nothing, retried_eq_false.mp gone⟩
    · have stays : ¬ (turn.quit = true ∨ t.clientQuit = true ∨ retried turn.errno = false) := by
        tauto
      rw [if_neg stays]
      exact if_neg fun both => gone (retried_eq_false.mpr both.2)

theorem linePass_closed {line : Line} (running : line.thread.left = false) (quit : Bool) :
    linePass line (closedTurn quit line.errno) =
      if quit = true ∨ line.thread.clientQuit = true ∨ retried line.errno = false then
        some ((exitPath line.thread).1, ⟨line.thread.leave, line.errno⟩)
      else some ([], line) := by
  have kept : ¬ (0 ≤ (closedTurn quit line.errno).turn.recv.returnBytes ∧
      (closedTurn quit line.errno).turn.errno ≠ line.errno) := fun both => both.2 rfl
  have passed : tcpPass line.thread (closedTurn quit line.errno).turn =
      if quit = true ∨ line.thread.clientQuit = true ∨ retried line.errno = false then
        some (exitPath line.thread)
      else some ([], line.thread) := tcpPass_nothing running rfl (Int.le_refl _)
  rw [linePass, if_neg kept, passed]
  split
  · rfl
  · rfl

theorem closedPasses_stay {line : Line} (running : line.thread.left = false)
    (unasked : line.thread.clientQuit = false) (again : retried line.errno = true)
    {quits : Nat → Bool} {n : Nat} (goesOn : ∀ k < n, quits k = false) :
    closedPasses quits line n = line := by
  induction n with
  | zero => rfl
  | succ n ih =>
      have here := ih fun k below => goesOn k (Nat.lt_succ_of_lt below)
      have stays : ¬ (quits n = true ∨ line.thread.clientQuit = true ∨ retried line.errno = false) := by
        simp [goesOn n (Nat.lt_succ_self n), unasked, again]
      rw [closedPasses, here, linePass_closed running, if_neg stays]
      rfl

theorem endsLoop_iff {line : Line} (running : line.thread.left = false) (quits : Nat → Bool) :
    EndsLoop quits line ↔
      retried line.errno = false ∨ line.thread.clientQuit = true ∨ ∃ n, quits n = true := by
  constructor
  · rintro ⟨n, _, ends⟩
    by_contra forever
    rw [not_or, not_or] at forever
    obtain ⟨again, unasked, goesOn⟩ := forever
    have quiet : ∀ k, quits k = false := fun k => Bool.eq_false_iff.mpr fun quit => goesOn ⟨k, quit⟩
    have stays : ¬ (quits n = true ∨ line.thread.clientQuit = true ∨ retried line.errno = false) := by
      simp [quiet n, unasked, again]
    rw [closedPasses_stay running (Bool.eq_false_iff.mpr unasked)
      (Bool.not_eq_false _ ▸ again) fun k _ => quiet k, linePass_closed running, if_neg stays] at ends
    have left : line.thread.left = true :=
      congrArg (fun result => result.2.thread.left) (Option.some.inj ends)
    rw [running] at left
    cases left
  · intro ends
    by_cases atOnce : retried line.errno = false ∨ line.thread.clientQuit = true
    · refine ⟨0, running, ?_⟩
      rw [closedPasses, linePass_closed running, if_pos]
      tauto
    · rw [not_or] at atOnce
      obtain ⟨again, unasked⟩ := atOnce
      have some_ : ∃ n, quits n = true := by tauto
      have stays : closedPasses quits line (Nat.find some_) = line := by
        apply closedPasses_stay running (Bool.eq_false_iff.mpr unasked)
        · simpa using again
        · intro k below
          simpa using Nat.find_min some_ below
      refine ⟨Nat.find some_, ?_⟩
      rw [stays, linePass_closed running, if_pos (.inl (Nat.find_spec some_))]
      exact ⟨running, rfl⟩

/-! ## Runs -/

theorem run_errnoLeft {start line : Line} {history : List (LineTurn × List Call)}
    (run : Run (ExecStep linePass) start history line) :
    line.errno = errnoLeft start.errno history := by
  induction run with
  | nil => rfl
  | @snoc before line next event earlier taken ih =>
      obtain ⟨answers, calls⟩ := event
      change linePass line answers = some (calls, next) at taken
      unfold linePass at taken
      split at taken
      · cases taken
      · rename_i allowed
        obtain ⟨⟨calls', thread⟩, _, same⟩ := Option.map_eq_some_iff.mp taken
        cases same
        rw [errnoLeft, ← ih]
        split
        · rfl
        · have kept : answers.turn.errno = line.errno := by
            by_contra differs
            exact allowed ⟨by omega, differs⟩
          rw [kept]

/-- Once the peer has closed, the loop ends exactly when the last failed call left
`errno` at a value that is not retried, or the client has quit, or the server does. -/
theorem closed_connection_ends_iff {start line : Line} {history : List (LineTurn × List Call)}
    (run : Run (ExecStep linePass) start history line) (running : line.thread.left = false)
    (quits : Nat → Bool) :
    EndsLoop quits line ↔ retried (errnoLeft start.errno history) = false ∨
      line.thread.clientQuit = true ∨ ∃ n, quits n = true := by
  rw [← run_errnoLeft run]
  exact endsLoop_iff running quits

def failing (errno : Errno) : LineTurn :=
  ⟨{ quit := false, recv := .failed, errno, headerSent := 0, added := .noSlot, resolution := 0 }, none⟩

def freshLine : Line := ⟨.start (-1) .success 0, .other⟩

/-- A signal interrupts `recv`, a client registers, and the server quits in the end. -/
theorem closed_connection_ends_iff_interrupted :
    ∃ result, execAll linePass [failing .eintr, ⟨{ receiving 1 [0x88, 0x13, 0, 0, 0x58, 0x1B, 0, 0]
        (.slot 0) with errno := .eintr }, none⟩] ([], freshLine) = some result ∧
      (EndsLoop (fun n => decide (n = 3)) result.2 ↔
        retried (errnoLeft freshLine.errno result.1) = false ∨
          result.2.thread.clientQuit = true ∨ ∃ n, decide (n = 3) = true) := by
  have served : ((execAll linePass [failing .eintr, ⟨{ receiving 1 [0x88, 0x13, 0, 0, 0x58, 0x1B, 0, 0]
      (.slot 0) with errno := .eintr }, none⟩] ([], freshLine)).any
        fun (_, line) => !line.thread.left) = true := by
    decide
  obtain ⟨result, executed⟩ := Option.isSome_iff_exists.mp (Option.isSome_of_any served)
  rw [executed, Option.any_some, Bool.not_eq_true'] at served
  exact ⟨result, executed,
    closed_connection_ends_iff (execAll_run .nil executed) served fun n => decide (n = 3)⟩

/-- A signal interrupts `recv`, and then the peer closes the connection. -/
theorem closed_connection_ends_fails : ¬ ∀ (start line : Line) (history : List (LineTurn × List Call)),
    start.thread = .start (-1) .success 0 → Run (ExecStep linePass) start history line →
      line.thread.left = false → EndsLoop (fun _ => false) line := by
  intro claim
  have interrupted : execAll linePass [failing .eintr] ([], freshLine) =
      some ([(failing .eintr, [])], ⟨.start (-1) .success 0, .eintr⟩) := rfl
  have ends := claim freshLine _ _ rfl (execAll_run .nil interrupted) rfl
  rcases (endsLoop_iff rfl _).mp ends with gone | quit | ⟨_, quit⟩
  · cases gone
  · cases quit
  · cases quit

end DvsServer.Network.ServerIf
