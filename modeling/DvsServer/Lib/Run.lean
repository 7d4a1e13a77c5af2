import Mathlib.Algebra.Ring.Int.Defs
import Mathlib.Algebra.Ring.Nat
import Mathlib.Logic.Function.Basic

/-!
# Labelled runs

A run is a finite sequence of labelled steps.  Its history lists the labels
with the newest one first, so that what was said last about something is
found by structural recursion on the history.
-/

namespace DvsServer.Lib

/-- `Run step start history state`: the steps of `history`, taken from its last
entry to its first, lead from `start` to `state`. -/
inductive Run {σ ε : Type} (step : σ → ε → σ → Prop) (start : σ) : List ε → σ → Prop where
  | nil : Run step start [] start
  | snoc {history : List ε} {state next : σ} {event : ε} :
      Run step start history state → step state event next →
        Run step start (event :: history) next

/-- The steps whose condition on the state before the step holds. -/
def Guarded {σ ε : Type} (guard : σ → ε → Prop) (step : σ → ε → σ → Prop) : σ → ε → σ → Prop :=
  fun state event next => guard state event ∧ step state event next

namespace Run

/-- The run rule: what holds at the start and is kept by every step taken along
the run holds at its end. -/
theorem invariant {σ ε : Type} {step : σ → ε → σ → Prop} {start : σ}
    (holds : List ε → σ → Prop) (initial : holds [] start)
    (preserved : ∀ {history state event next}, Run step start history state →
      holds history state → step state event next → holds (event :: history) next)
    {history : List ε} {state : σ} (run : Run step start history state) :
    holds history state := by
  induction run with
  | nil => exact initial
  | snoc earlier taken ih => exact preserved earlier ih taken

/-- Weaken the step relation of a run. -/
theorem mono {σ ε : Type} {step wider : σ → ε → σ → Prop} {start : σ}
    (weaken : ∀ {state event next}, step state event next → wider state event next)
    {history : List ε} {state : σ} (run : Run step start history state) :
    Run wider start history state := by
  induction run with
  | nil => exact .nil
  | snoc earlier taken ih => exact .snoc ih (weaken taken)

/-- A run that goes on from where another has ended. -/
theorem trans {σ ε : Type} {step : σ → ε → σ → Prop} {start middle state : σ} {first second : List ε}
    (one : Run step start first middle) (two : Run step middle second state) :
    Run step start (second ++ first) state := by
  induction two with
  | nil => exact one
  | snoc earlier taken ih => exact .snoc ih taken

theorem of_guarded {σ ε : Type} {guard : σ → ε → Prop} {step : σ → ε → σ → Prop} {start : σ}
    {history : List ε} {state : σ} (run : Run (Guarded guard step) start history state) :
    Run step start history state :=
  run.mono And.right

end Run

/-! ## Histories -/

/-- Past-time `since`: some event satisfied `now` together with the history
before it, and every later event satisfies `keep`. -/
inductive Since {ε : Type} (keep : ε → Prop) (now : ε → List ε → Prop) : List ε → Prop where
  | here {event : ε} {before : List ε} : now event before → Since keep now (event :: before)
  | later {event : ε} {before : List ε} :
      keep event → Since keep now before → Since keep now (event :: before)

namespace Since

theorem nil {ε : Type} {keep : ε → Prop} {now : ε → List ε → Prop} : ¬ Since keep now [] := by
  intro since
  cases since

theorem cons_iff {ε : Type} {keep : ε → Prop} {now : ε → List ε → Prop} {event : ε}
    {before : List ε} :
    Since keep now (event :: before) ↔ now event before ∨ keep event ∧ Since keep now before := by
  constructor
  · intro since
    cases since with
    | here happened => exact .inl happened
    | later kept since => exact .inr ⟨kept, since⟩
  · rintro (happened | ⟨kept, since⟩)
    · exact .here happened
    · exact .later kept since

/-- An event that neither satisfies `now` nor breaks `keep` changes nothing. -/
theorem cons_of_neutral {ε : Type} {keep : ε → Prop} {now : ε → List ε → Prop} {event : ε}
    {before : List ε} (kept : keep event) (silent : ¬ now event before) :
    Since keep now (event :: before) ↔ Since keep now before := by
  rw [cons_iff]
  exact ⟨fun since => (since.resolve_left silent).2, fun since => .inr ⟨kept, since⟩⟩

end Since

/-! ## Executable runs -/

/-- A loop that may take more steps than `n` has one to take. -/
theorem exists_fuel {n fuel : Nat} (enough : n < fuel) : ∃ rest, fuel = rest + 1 :=
  Nat.exists_eq_succ_of_ne_zero (Nat.ne_of_gt (Nat.zero_lt_of_lt enough))

/-- Execute a list of operations, oldest first, collecting the history of
operations and outcomes; `none` as soon as one operation is undefined. -/
def execAll {σ α β : Type} (exec : σ → α → Option (β × σ)) :
    List α → List (α × β) × σ → Option (List (α × β) × σ)
  | [], reached => some reached
  | op :: rest, (history, state) =>
      match exec state op with
      | none => none
      | some (outcome, next) => execAll exec rest ((op, outcome) :: history, next)

/-- The step relation of an executable operation. -/
def ExecStep {σ α β : Type} (exec : σ → α → Option (β × σ)) : σ → α × β → σ → Prop :=
  fun state event next => exec state event.1 = some (event.2, next)

theorem Run.exec {σ α β : Type} {exec : σ → α → Option (β × σ)} {start state next : σ}
    {history : List (α × β)} {op : α} {outcome : β} (before : Run (ExecStep exec) start history state)
    (taken : exec state op = some (outcome, next)) :
    Run (ExecStep exec) start ((op, outcome) :: history) next :=
  .snoc before taken

/-- An operation that is undefined where its guard fails. -/
def checked {σ α β : Type} (guard : σ → α × β → Prop) [∀ s event, Decidable (guard s event)]
    (exec : σ → α → Option (β × σ)) : σ → α → Option (β × σ) :=
  fun s op =>
    match exec s op with
    | none => none
    | some (outcome, next) => if guard s (op, outcome) then some (outcome, next) else none

theorem ExecStep.guarded {σ α β : Type} {guard : σ → α × β → Prop}
    [∀ s event, Decidable (guard s event)] {exec : σ → α → Option (β × σ)} {s next : σ}
    {event : α × β} (step : ExecStep (checked guard exec) s event next) :
    Guarded guard (ExecStep exec) s event next := by
  obtain ⟨op, outcome⟩ := event
  unfold ExecStep checked at step
  dsimp only at step
  split at step
  · cases step
  · rename_i outcome' next' taken
    split at step
    · rename_i allowed
      cases Option.some.inj step
      exact ⟨allowed, taken⟩
    · cases step

theorem execAll_run {σ α β : Type} {exec : σ → α → Option (β × σ)} {start : σ} {ops : List α}
    {history : List (α × β)} {state : σ} {result : List (α × β) × σ}
    (before : Run (ExecStep exec) start history state)
    (executed : execAll exec ops (history, state) = some result) :
    Run (ExecStep exec) start result.1 result.2 := by
  induction ops generalizing history state with
  | nil =>
      cases Option.some.inj executed
      exact before
  | cons op rest ih =>
      rw [execAll] at executed
      cases taken : exec state op with
      | none => rw [taken] at executed; cases executed
      | some reached =>
          rw [taken] at executed
          exact ih (before.exec taken) executed

/-- Operations that are defined in every state can all be executed. -/
theorem execAll_defined {σ α β : Type} {exec : σ → α → Option (β × σ)} {ops : List α}
    (defined : ∀ op ∈ ops, ∀ s, ∃ result, exec s op = some result)
    (history : List (α × β)) (s : σ) :
    ∃ result, execAll exec ops (history, s) = some result := by
  induction ops generalizing history s with
  | nil => exact ⟨_, rfl⟩
  | cons op rest ih =>
      obtain ⟨⟨outcome, after⟩, taken⟩ := defined op List.mem_cons_self s
      rw [execAll, taken]
      exact ih (fun later inRest => defined later (List.mem_cons_of_mem _ inRest)) _ _

end DvsServer.Lib
