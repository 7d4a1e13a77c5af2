import DvsServer.Lib.Run
import Mathlib.Data.Fintype.Card

/-!
# Meeting after initialisation (`utils/osa/inc/rendezvous.h`)

`start_all_threads` opens `rendezvousInit` for the threads it creates; each
of them calls `Rendezvous_meet` once when its initialisation is done, and
`delete_session_tsk` calls `Rendezvous_force`.  `Rendezvous_meet` waits at most
once: a thread that wakes for no reason does not look at `count` again.
-/

namespace DvsServer.Osa.Rendezvous

open DvsServer.Lib

/-- Where a thread is: still initialising, in the wait of `Rendezvous_meet`,
woken there, or behind it. -/
inductive Place where
  | initialising
  | waiting
  | woken
  | behind
deriving DecidableEq

structure State (τ : Type) where
  count : Int
  place : τ → Place

inductive Event (τ : Type) where
  | meet (thread : τ)
  | spurious (thread : τ)
  | leave (thread : τ)
  | force

/-- `pthread_cond_broadcast` -/
def wakeAll : Place → Place
  | .waiting => .woken
  | place => place

variable {τ : Type} [DecidableEq τ]

/-- `Rendezvous_open` -/
def opened (count : Int) : State τ := ⟨count, fun _ => .initialising⟩

/-- `Rendezvous_meet` until it waits or is about to return. -/
def meet (s : State τ) (thread : τ) : State τ :=
  let count := s.count - 1
  if 0 < count then ⟨count, Function.update s.place thread .waiting⟩
  else ⟨count, Function.update (fun other => wakeAll (s.place other)) thread .behind⟩

/-- `Rendezvous_force` -/
def force (s : State τ) : State τ := ⟨0, fun thread => wakeAll (s.place thread)⟩

inductive Step : State τ → Event τ → State τ → Prop where
  | meet {s : State τ} {thread : τ} (ready : s.place thread = .initialising) :
      Step s (.meet thread) (meet s thread)
  | spurious {s : State τ} {thread : τ} (waits : s.place thread = .waiting) :
      Step s (.spurious thread) { s with place := Function.update s.place thread .woken }
  | leave {s : State τ} {thread : τ} (woken : s.place thread = .woken) :
      Step s (.leave thread) { s with place := Function.update s.place thread .behind }
  | force {s : State τ} : Step s .force (force s)

theorem wakeAll_ne_waiting (place : Place) : wakeAll place ≠ .waiting := by
  cases place <;> simp [wakeAll]

theorem wakeAll_eq_initialising {place : Place} :
    wakeAll place = .initialising ↔ place = .initialising := by
  cases place <;> simp [wakeAll]

@[simp] theorem meet_count (s : State τ) (thread : τ) : (meet s thread).count = s.count - 1 := by
  unfold meet
  dsimp only
  split <;> rfl

theorem meet_place_self (s : State τ) (thread : τ) :
    (meet s thread).place thread = if 0 < s.count - 1 then .waiting else .behind := by
  by_cases more : 0 < s.count - 1
  · simp only [meet, if_pos more, Function.update_self]
  · simp only [meet, if_neg more, Function.update_self]

theorem meet_place_of_ne (s : State τ) {thread other : τ} (differs : other ≠ thread) :
    (meet s thread).place other =
      if 0 < s.count - 1 then s.place other else wakeAll (s.place other) := by
  by_cases more : 0 < s.count - 1
  · simp only [meet, if_pos more, Function.update_of_ne differs]
  · simp only [meet, if_neg more, Function.update_of_ne differs]

variable [Fintype τ]

/-- The threads that have not met yet. -/
def absent (s : State τ) : Finset τ := Finset.univ.filter fun thread => s.place thread = .initialising

omit [DecidableEq τ] in
theorem mem_absent {s : State τ} {thread : τ} :
    thread ∈ absent s ↔ s.place thread = .initialising := by
  simp [absent]

/-- A thread that moves on without meeting leaves the others where they are. -/
theorem absent_update {s : State τ} {thread : τ} {place : Place}
    (met : s.place thread ≠ .initialising) (stays : place ≠ .initialising) :
    absent { s with place := Function.update s.place thread place } = absent s := by
  ext other
  rw [mem_absent, mem_absent]
  by_cases same : other = thread
  · simp [same, met, stays]
  · simp [Function.update_of_ne same]

/-- One thread less is absent after a meeting. -/
theorem absent_meet (s : State τ) (thread : τ) :
    absent (meet s thread) = (absent s).erase thread := by
  ext other
  rw [Finset.mem_erase, mem_absent, mem_absent]
  by_cases same : other = thread
  · rw [same, meet_place_self]
    split <;> simp
  · rw [meet_place_of_ne s same]
    split
    · simp [same]
    · simp [same, wakeAll_eq_initialising]

/-- Nobody has called `Rendezvous_force`. -/
def Unforced (history : List (Event τ)) : Prop := Event.force ∉ history

/-- While nobody forces the object, `count` is the number of threads that have
not met, and a thread waits only for one of them.  Once it is forced `count`
stays below one and nobody waits. -/
structure Invariant (history : List (Event τ)) (s : State τ) : Prop where
  counted : Unforced history → s.count = (absent s).card
  waits_for : Unforced history → ∀ thread, s.place thread = .waiting → 0 < s.count
  woken_by : Unforced history → ∀ thread, s.place thread = .woken ∨ s.place thread = .behind →
    s.count = 0 ∨ Event.spurious thread ∈ history
  forced : ¬ Unforced history → s.count ≤ 0 ∧ ∀ thread, s.place thread ≠ .waiting

omit [DecidableEq τ] [Fintype τ] in
theorem unforced_cons {history : List (Event τ)} {event : Event τ} (other : event ≠ .force) :
    Unforced (event :: history) ↔ Unforced history := by
  simp [Unforced, other.symm]

namespace Invariant

omit [DecidableEq τ] in
theorem opened : Invariant [] (opened (Fintype.card τ) : State τ) := by
  refine ⟨fun _ => ?_, fun _ _ waits => ?_, fun _ _ woken => ?_, fun forced => ?_⟩
  · simp [absent, Rendezvous.opened]
  · cases waits
  · rcases woken with woken | behind
    · cases woken
    · cases behind
  · exact absurd List.not_mem_nil forced

theorem meet {history : List (Event τ)} {s : State τ} (before : Invariant history s) {thread : τ}
    (ready : s.place thread = .initialising) :
    Invariant (.meet thread :: history) (meet s thread) := by
  have unforced : Unforced (.meet thread :: history) ↔ Unforced history := unforced_cons (by simp)
  constructor
  · intro quiet
    have counted := before.counted (unforced.mp quiet)
    have one := Finset.card_erase_add_one (mem_absent.mpr ready)
    rw [meet_count, absent_meet, counted]
    omega
  · intro quiet other waits
    rw [meet_count]
    by_contra last
    by_cases same : other = thread
    · rw [same, meet_place_self, if_neg last] at waits
      cases waits
    · rw [meet_place_of_ne s same, if_neg last] at waits
      exact wakeAll_ne_waiting _ waits
  · intro quiet other woken
    have counted := before.counted (unforced.mp quiet)
    have some_ : 0 < (absent s).card := Finset.card_pos.mpr ⟨thread, mem_absent.mpr ready⟩
    rw [meet_count]
    by_cases more : 0 < s.count - 1
    · -- the thread that meets goes to sleep, the others stay where they were
      by_cases same : other = thread
      · rw [same, meet_place_self, if_pos more] at woken
        simp at woken
      · rw [meet_place_of_ne s same, if_pos more] at woken
        rcases before.woken_by (unforced.mp quiet) other woken with zero | spurious
        · omega
        · exact .inr (List.mem_cons_of_mem _ spurious)
    · left
      omega
  · intro forced
    obtain ⟨count_le, nobody⟩ := before.forced (fun quiet => forced (unforced.mpr quiet))
    have last : ¬ 0 < s.count - 1 := by omega
    rw [meet_count]
    refine ⟨by omega, ?_⟩
    intro other waits
    by_cases same : other = thread
    · rw [same, meet_place_self, if_neg last] at waits
      cases waits
    · rw [meet_place_of_ne s same, if_neg last] at waits
      exact wakeAll_ne_waiting _ waits

theorem spurious {history : List (Event τ)} {s : State τ} (before : Invariant history s)
    {thread : τ} (waits : s.place thread = .waiting) :
    Invariant (.spurious thread :: history)
      { s with place := Function.update s.place thread .woken } := by
  have unforced : Unforced (.spurious thread :: history) ↔ Unforced history :=
    unforced_cons (by simp)
  constructor
  · intro quiet
    rw [absent_update (by simp [waits]) (by simp)]
    exact before.counted (unforced.mp quiet)
  · intro quiet other waiting
    exact before.waits_for (unforced.mp quiet) thread waits
  · intro quiet other woken
    by_cases same : other = thread
    · right
      rw [same]
      exact List.mem_cons_self
    · change Function.update s.place thread .woken other = _ ∨
        Function.update s.place thread .woken other = _ at woken
      rw [Function.update_of_ne same] at woken
      rcases before.woken_by (unforced.mp quiet) other woken with zero | spurious
      · exact .inl zero
      · exact .inr (List.mem_cons_of_mem _ spurious)
  · intro forced
    exact absurd waits ((before.forced (fun quiet => forced (unforced.mpr quiet))).2 thread)

theorem leave {history : List (Event τ)} {s : State τ} (before : Invariant history s) {thread : τ}
    (isWoken : s.place thread = .woken) :
    Invariant (.leave thread :: history)
      { s with place := Function.update s.place thread .behind } := by
  have unforced : Unforced (.leave thread :: history) ↔ Unforced history :=
    unforced_cons (by simp)
  constructor
  · intro quiet
    rw [absent_update (by simp [isWoken]) (by simp)]
    exact before.counted (unforced.mp quiet)
  · intro quiet other waiting
    change Function.update s.place thread .behind other = _ at waiting
    by_cases same : other = thread
    · simp [same] at waiting
    · rw [Function.update_of_ne same] at waiting
      exact before.waits_for (unforced.mp quiet) other waiting
  · intro quiet other woken
    change Function.update s.place thread .behind other = _ ∨
      Function.update s.place thread .behind other = _ at woken
    have was : s.place other = .woken ∨ s.place other = .behind := by
      by_cases same : other = thread
      · exact .inl (same ▸ isWoken)
      · rwa [Function.update_of_ne same] at woken
    rcases before.woken_by (unforced.mp quiet) other was with zero | spurious
    · exact .inl zero
    · exact .inr (List.mem_cons_of_mem _ spurious)
  · intro forced
    obtain ⟨count_le, nobody⟩ := before.forced (fun quiet => forced (unforced.mpr quiet))
    refine ⟨count_le, ?_⟩
    intro other waiting
    change Function.update s.place thread .behind other = _ at waiting
    by_cases same : other = thread
    · simp [same] at waiting
    · rw [Function.update_of_ne same] at waiting
      exact nobody other waiting

omit [DecidableEq τ] in
theorem force {history : List (Event τ)} {s : State τ} :
    Invariant (.force :: history) (force s) := by
  have forced : ¬ Unforced (.force :: history) := by simp [Unforced]
  refine ⟨fun quiet => absurd quiet forced, fun quiet => absurd quiet forced,
    fun quiet => absurd quiet forced, fun _ => ⟨Int.le_refl 0, ?_⟩⟩
  intro thread
  exact wakeAll_ne_waiting _

theorem of_run {history : List (Event τ)} {s : State τ}
    (run : Run Step (Rendezvous.opened (Fintype.card τ)) history s) : Invariant history s := by
  apply run.invariant (fun history s => Invariant history s) opened
  intro history s event next _ before step
  cases step with
  | meet ready => exact before.meet ready
  | spurious waits => exact before.spurious waits
  | leave woken => exact before.leave woken
  | force => exact force

end Invariant

/-- Over every interleaving a thread gets past the meeting only when every
thread has finished its initialisation, when the object was forced, or when
its own wait ended for no reason; and as soon as every thread has met, or the
object was forced, no thread is left waiting. -/
theorem meeting_of_run {history : List (Event τ)} {s : State τ}
    (run : Run Step (opened (Fintype.card τ)) history s) :
    (∀ thread, s.place thread = .woken ∨ s.place thread = .behind →
      (∀ other, s.place other ≠ .initialising) ∨ Event.force ∈ history ∨
        Event.spurious thread ∈ history) ∧
    ((∀ other, s.place other ≠ .initialising) ∨ Event.force ∈ history →
      ∀ thread, s.place thread ≠ .waiting) := by
  have inv := Invariant.of_run run
  constructor
  · intro thread woken
    by_cases forced : Event.force ∈ history
    · exact .inr (.inl forced)
    · rcases inv.woken_by forced thread woken with zero | spurious
      · left
        intro other ready
        have counted := inv.counted forced
        have some_ : 0 < (absent s).card := Finset.card_pos.mpr ⟨other, mem_absent.mpr ready⟩
        omega
      · exact .inr (.inr spurious)
  · intro complete thread waits
    by_cases forced : Event.force ∈ history
    · exact (inv.forced (fun quiet => quiet forced)).2 thread waits
    · have all := complete.resolve_right forced
      have waited := inv.waits_for forced thread waits
      have nobody : absent s = ∅ := by
        apply Finset.eq_empty_of_forall_notMem
        intro other isAbsent
        exact all other (mem_absent.mp isAbsent)
      rw [inv.counted forced, nobody] at waited
      cases waited

/-! ## The threads of the server -/

/-- The threads `start_all_threads` creates (`core/src/main.c`). -/
inductive InitThread where
  | ortpSession
  | videoEncode
  | audioEncode
  | alarmInput
deriving DecidableEq

/-- In the order in which they are created. -/
def initThreads : Finset InitThread := {.ortpSession, .videoEncode, .audioEncode, .alarmInput}

theorem mem_initThreads (thread : InitThread) : thread ∈ initThreads := by
  cases thread <;> decide

instance : Fintype InitThread := ⟨initThreads, mem_initThreads⟩

def numOfThreads : Nat := 4

/-- `rendezvousInit` is opened for exactly the threads that meet there. -/
example : Fintype.card InitThread = numOfThreads := rfl

/-- Three threads wait, the last one meets and everybody is let through. -/
theorem meeting_of_run_complete : ∃ s : State InitThread,
    s.place .audioEncode = .woken ∧ ∀ thread, s.place thread ≠ .waiting := by
  have first : Run Step (opened (Fintype.card InitThread)) [.meet InitThread.ortpSession]
      (meet (opened (Fintype.card InitThread)) .ortpSession) := .snoc .nil (.meet rfl)
  have second := first.snoc (.meet (by decide) : Step _ (.meet .videoEncode) _)
  have third := second.snoc (.meet (by decide) : Step _ (.meet .audioEncode) _)
  have last := third.snoc (.meet (by decide) : Step _ (.meet .alarmInput) _)
  refine ⟨_, by decide, (meeting_of_run last).2 (.inl ?_)⟩
  decide

end DvsServer.Osa.Rendezvous
