import Mathlib.Algebra.Ring.Int.Defs
import Mathlib.Algebra.Ring.Nat
import Mathlib.Data.List.Basic

/-!
# FIFOs that can fill up and be closed

A writer waits while the queue is full, a reader while it is empty.  Once the
FIFO is closed every call fails at once.
-/

namespace DvsServer.Lib

/-- What a call does at once: wait, run into undefined behaviour, or return. -/
inductive Outcome (α : Type) where
  | blocked
  | undefined
  | next (result : α)

namespace Outcome

def toOption {α : Type} : Outcome α → Option α
  | .next result => some result
  | _ => none

def isBlocked {α : Type} : Outcome α → Bool
  | .blocked => true
  | _ => false

theorem isBlocked_iff {α : Type} {outcome : Outcome α} :
    outcome.isBlocked = true ↔ outcome = .blocked := by
  cases outcome <;> simp [isBlocked]

theorem toOption_eq_some {α : Type} {outcome : Outcome α} {result : α} :
    outcome.toOption = some result ↔ outcome = .next result := by
  cases outcome with
  | next other => simp [toOption]
  | _ => simp [toOption]

end Outcome

structure Fifo (α : Type) where
  queue : List α
  closed : Bool

namespace Fifo

variable {α : Type}

/-- An open FIFO with nothing in it. -/
def empty : Fifo α := ⟨[], false⟩

/-- No room for one more element; `none` stands for no limit. -/
def full (capacity : Option Nat) (f : Fifo α) : Bool :=
  match capacity with
  | none => false
  | some n => n ≤ f.queue.length

/-- The result tells whether the element was put. -/
def put (capacity : Option Nat) (f : Fifo α) (x : α) : Outcome (Bool × Fifo α) :=
  if f.closed then .next (false, f)
  else if f.full capacity then .blocked
  else .next (true, { f with queue := f.queue ++ [x] })

/-- The result is the element, or `none` when the call failed. -/
def get (f : Fifo α) : Outcome (Option α × Fifo α) :=
  if f.closed then .next (none, f)
  else
    match f.queue with
    | [] => .blocked
    | x :: rest => .next (some x, { f with queue := rest })

/-- The two ways in which a put returns. -/
inductive Puts (capacity : Option Nat) (f : Fifo α) (x : α) : Bool → Fifo α → Prop where
  | closed (closed : f.closed = true) : Puts capacity f x false f
  | put (open_ : f.closed = false) (room : f.full capacity = false) :
      Puts capacity f x true ⟨f.queue ++ [x], f.closed⟩

theorem put_cases {capacity : Option Nat} {f after : Fifo α} {x : α} {ok : Bool}
    (done : f.put capacity x = .next (ok, after)) : Puts capacity f x ok after := by
  unfold put at done
  split at done
  · rename_i closed
    cases done
    exact .closed closed
  · rename_i opened
    split at done
    · cases done
    · rename_i room
      cases done
      exact .put (Bool.eq_false_iff.mpr opened) (Bool.eq_false_iff.mpr room)

/-- The two ways in which a get returns. -/
inductive Gets (f : Fifo α) : Option α → Fifo α → Prop where
  | closed (closed : f.closed = true) : Gets f none f
  | got {x : α} {rest : List α} (open_ : f.closed = false) (queue : f.queue = x :: rest) :
      Gets f (some x) ⟨rest, f.closed⟩

theorem get_cases {f after : Fifo α} {result : Option α}
    (done : f.get = .next (result, after)) : Gets f result after := by
  unfold get at done
  split at done
  · rename_i closed
    cases done
    exact .closed closed
  · rename_i opened
    split at done
    · cases done
    · rename_i x rest queue
      cases done
      exact .got (Bool.eq_false_iff.mpr opened) queue

/-- A writer waits at a full open FIFO only. -/
theorem put_blocked {capacity : Option Nat} {f : Fifo α} {x : α} :
    f.put capacity x = .blocked ↔ f.closed = false ∧ f.full capacity = true := by
  unfold put
  split
  · simp_all
  · split <;> simp_all

/-- A reader waits at an empty open FIFO only. -/
theorem get_blocked {f : Fifo α} : f.get = .blocked ↔ f.closed = false ∧ f.queue = [] := by
  unfold get
  split
  · simp_all
  · split <;> simp_all

end Fifo

end DvsServer.Lib
