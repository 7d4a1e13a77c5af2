import DvsServer.Core.ThreadEnds

/-!
# Closing the FIFOs

The session thread closes the FIFOs when the sub-session threads have left their
loops, and they may leave on the quit flag alone.  It does not wait for the video
thread, which still has its round to finish and its flush elements to put.
-/

namespace DvsServer.Core.Pipeline

open DvsServer.Lib DvsServer.Com.RtpSend DvsServer.Core.Session DvsServer.Core.VideoEncode

/-! ## The property -/

/-- The step called `FifoUtil_put` or `FifoUtil_get` on the FIFO of group `g`. -/
def Act.uses : Act → Fin maxGroupNum → Bool
  | .puts h _ _, g | .putFails h, g | .gets h _, g | .getFails h, g => h = g
  | _, _ => false

/-- No FIFO is used after `FifoUtil_close` has been called on it. -/
def ClosedLast (history : History) : Prop :=
  history.Pairwise fun later earlier => ∀ g, earlier.2 = .closes g → later.2.uses g = false

/-- A FIFO is closed only when the video thread has put its flush element there. -/
def ClosesFlushed (p : State) : Mover × Act → Prop
  | (_, .closes g) => p.video.pc.passed g = true
  | _ => True

instance (p : State) : DecidablePred (ClosesFlushed p)
  | (_, .closes g) => inferInstanceAs (Decidable (p.video.pc.passed g = true))
  | (_, .quiet) | (_, .writes _ _ _ _) | (_, .puts _ _ _) | (_, .putFails _) | (_, .gets _ _)
  | (_, .getFails _) | (_, .leaves _) | (_, .sends _ _ _) | (_, .quits) => .isTrue trivial

/-! ## What a step does to the FIFOs -/

/-- The video thread never comes back to a group it has put the flush element for. -/
theorem VideoSteps.passed {chs : Int} {capacity : Option Nat} {p after : State} {act : Act}
    (steps : VideoSteps chs capacity p act after) {g : Nat} (passed : p.video.pc.passed g = true) :
    after.video.pc.passed g = true := by
  have away : ∀ {pc : VideoPc}, p.video.pc = pc → pc.passed g = false → after.video.pc.passed g = true := by
    intro pc at_ not_yet
    rw [at_, not_yet] at passed
    cases passed
  cases steps with
  | leave pc quit => exact away pc rfl
  | enter pc quit => exact away pc rfl
  | store stores held stored =>
      cases stores with
      | fileEnd pc => exact away pc rfl
      | header pc => exact away pc rfl
      | mark pc => exact away pc rfl
      | noFrame pc => exact away pc rfl
      | frame pc => exact away pc rfl
      | copy pc => exact away pc rfl
      | patch pc => exact away pc rfl
  | skip pc => exact away pc rfl
  | round pc ended => exact away pc rfl
  | put target puts => exact target.passed_kept passed
  | flushed pc ended => rfl

/-- Only the video thread moves itself, and it passes more and more groups. -/
theorem Steps.passed {chs : Int} {capacity : Option Nat} {p after : State} {event : Mover × Act}
    (steps : Steps chs capacity p event after) {g : Nat} (passed : p.video.pc.passed g = true) :
    after.video.pc.passed g = true := by
  cases steps with
  | video steps => exact steps.passed passed
  | reader below steps =>
      cases steps <;> exact passed
  | session steps =>
      cases steps <;> exact passed
  | main => exact passed

/-- A step closes the FIFO it is said to close, and no other. -/
theorem Steps.closed {chs : Int} {capacity : Option Nat} {p after : State} {mover : Mover} {act : Act}
    (steps : Steps chs capacity p (mover, act) after) (g : Fin maxGroupNum) :
    (after.fifos g).closed = true ↔ (p.fifos g).closed = true ∨ act = .closes g := by
  -- a step that closes nothing
  have keeps : (after.fifos g).closed = (p.fifos g).closed → (∀ h, act ≠ .closes h) →
      ((after.fifos g).closed = true ↔ (p.fifos g).closed = true ∨ act = .closes g) := by
    intro same other
    rw [same]
    exact ⟨.inl, fun either => either.resolve_right (other g)⟩
  cases steps with
  | video steps =>
      apply keeps (steps.closed g)
      intro h same
      cases steps with
      | @put _ _ _ ok => cases ok <;> cases same
      | _ => cases same
  | reader below steps =>
      apply keeps (steps.closed g)
      intro h same
      cases steps <;> cases same
  | session steps =>
      cases steps with
      | @close i h at_ below group =>
          dsimp only
          by_cases same : g = h
          · subst same
            rw [setFifo_self]
            exact ⟨fun _ => .inr rfl, fun _ => rfl⟩
          · rw [setFifo_ne same]
            constructor
            · exact .inl
            · rintro (closed | here)
              · exact closed
              · cases here
                exact absurd rfl same
      | _ => exact keeps rfl fun _ => Act.noConfusion
  | main => exact keeps rfl fun _ => Act.noConfusion

/-! ## Every run -/

/-- The closed FIFOs are those that were said to be closed; the sub-session threads
have left, and the video thread has no use for a closed FIFO any more. -/
structure CloseOk (chs : Int) (history : History) (p : State) : Prop where
  join : JoinOk chs p
  recorded : ∀ mover g, (mover, .closes g) ∈ history → (p.fifos g).closed = true
  flushed : ∀ g, (p.fifos g).closed = true → p.video.pc.passed g = true

/-- A closed FIFO is not used by the step. -/
theorem CloseOk.unused {chs : Int} {capacity : Option Nat} {history : History} {p after : State}
    {event : Mover × Act} (ok : CloseOk chs history p) (steps : Steps chs capacity p event after)
    {g : Fin maxGroupNum} (closed : (p.fifos g).closed = true) : event.2.uses g = false := by
  cases steps with
  | video steps =>
      cases steps with
      | @put h elt pc done f target puts =>
          have differs : h ≠ g := by
            rintro rfl
            have passed := ok.flushed h closed
            rw [target.not_passed] at passed
            cases passed
          cases done with
          | true => exact decide_eq_false differs
          | false => exact decide_eq_false differs
      | _ => rfl
  | @reader h act after below steps =>
      have exited := ok.join.closed_exited closed below
      cases steps with
      | get at_ =>
          rw [at_] at exited
          cases exited
      | fail at_ =>
          rw [at_] at exited
          cases exited
      | _ => rfl
  | session steps =>
      cases steps <;> rfl
  | main => rfl

theorem CloseOk.step {chs : Int} {capacity : Option Nat} {history : History} {p after : State}
    {event : Mover × Act} (ok : CloseOk chs history p) (flushed : ClosesFlushed p event)
    (steps : Steps chs capacity p event after) : CloseOk chs (event :: history) after := by
  obtain ⟨mover, act⟩ := event
  refine ⟨ok.join.step steps, fun closer g closes => ?_, fun g closed => ?_⟩
  · rcases List.mem_cons.mp closes with now | before
    · cases now
      exact (steps.closed g).mpr (.inr rfl)
    · exact (steps.closed g).mpr (.inl (ok.recorded closer g before))
  · apply steps.passed
    rcases (steps.closed g).mp closed with before | now
    · exact ok.flushed g before
    · subst now
      exact flushed

theorem Started.closeOk {chs : Int} {p : State} (started : Started p) : CloseOk chs [] p := by
  refine ⟨started.joinOk, nofun, fun g closed => ?_⟩
  rw [started.fifos] at closed
  cases closed

theorem flushed_fifos_are_closed_last {chs : Int} {capacity : Option Nat} {start p : State}
    {history : History} (started : Started start)
    (run : Run (Guarded ClosesFlushed (ExecStep (pipelineExec chs capacity))) start history p) :
    ClosedLast history := by
  have both : CloseOk chs history p ∧ ClosedLast history := by
    apply run.invariant fun history p => CloseOk chs history p ∧ ClosedLast history
    · exact ⟨started.closeOk, List.Pairwise.nil⟩
    · rintro history p event after _ ⟨ok, last⟩ ⟨flushed, step⟩
      have steps := pipelineExec_cases step
      refine ⟨ok.step flushed steps, List.Pairwise.cons ?_ last⟩
      rintro ⟨mover, act⟩ before g closes
      subst closes
      exact ok.unused steps (ok.recorded mover g before)
  exact both.2

/-- Four channels in one group, and a file of one frame. -/
def oneGroup : State := initial 4 (shortFrame 7)

/-- The video thread has put its flush element when the FIFO is closed. -/
theorem flushed_fifos_are_closed_last_after : ∃ result,
    execAll (checked ClosesFlushed (pipelineExec 4 none))
      ([.main, .reader 0] ++ List.replicate 3 .video ++ List.replicate 4 .session)
        ([], oneGroup) = some result ∧ ClosedLast result.1 := by
  obtain ⟨result, executed⟩ := Option.isSome_iff_exists.mp
    (show (execAll (checked ClosesFlushed (pipelineExec 4 none))
      ([.main, .reader 0] ++ List.replicate 3 .video ++ List.replicate 4 .session)
        ([], oneGroup)).isSome = true by decide)
  exact ⟨result, executed, flushed_fifos_are_closed_last (initial_started ..)
    ((execAll_run .nil executed).mono ExecStep.guarded)⟩

/-- The only sub-session thread leaves on the quit flag, its FIFO is closed, and then
the video thread sees the flag and puts its flush element. -/
theorem fifos_are_closed_last_fails : ¬ ∀ (chs : Int) (capacity : Option Nat) (start p : State)
    (history : History), 0 < chs → chs ≤ maxVideoChannel → chs % chsPerSession = 0 → Started start →
      Run (ExecStep (pipelineExec chs capacity)) start history p → ClosedLast history := by
  intro claim
  have used : ((execAll (pipelineExec 4 none)
      ([.main, .reader 0] ++ List.replicate 4 .session ++ List.replicate 2 .video)
        ([], oneGroup)).any fun (history, _) =>
          !decide (history.Pairwise fun later earlier =>
            (match earlier.2 with | .closes g => later.2.uses g | _ => false) = false)) = true := by
    decide
  obtain ⟨⟨history, p⟩, ran, used⟩ := (Option.any_eq_true _ _).mp used
  have last := claim 4 none oneGroup p history (by decide) (by decide) (by decide)
    (initial_started ..) (execAll_run .nil ran)
  rw [Bool.not_eq_true', decide_eq_false_iff_not] at used
  apply used
  apply last.imp
  intro later earlier unused
  split
  · rename_i g closes
    exact unused g closes
  · rfl

end DvsServer.Core.Pipeline
