import DvsServer.Lib.Run
import Mathlib.Data.Finset.Card
import Mathlib.Data.Fintype.Basic

/-!
# Monitors

Calls that run under one lock and loop around condition variables.  A call is
given by its loop body: with the lock held it either waits on a condition
variable or leaves with a result, new data and perhaps a signal.  Any number
of threads make calls; a thread that waits comes back after a signal or for no
reason at all, and then runs the body again.
-/

namespace DvsServer.Lib

/-- One pass through the loop of a call. -/
inductive Pass (σ κ ρ : Type) where
  | wait (cond : κ)
  | leave (result : ρ) (after : σ) (signals : Option κ)

namespace Monitor

/-- Where a thread is: outside every call, in a wait, or woken and on its way
back to the lock. -/
inductive Thread (ω κ : Type) where
  | outside
  | asleep (op : ω) (cond : κ)
  | awake (op : ω)

structure State (τ ω κ σ : Type) where
  data : σ
  threads : τ → Thread ω κ

inductive Event (τ ω ρ : Type) where
  | done (thread : τ) (op : ω) (result : ρ)
  | slept (thread : τ) (op : ω)
  | spurious (thread : τ)

variable {τ ω κ σ ρ : Type} [DecidableEq τ]

/-- A signal wakes one thread that sleeps on the variable and is lost when there is none. -/
inductive Signalled (threads : τ → Thread ω κ) : Option κ → (τ → Thread ω κ) → Prop where
  | silent : Signalled threads none threads
  | lost {cond : κ} (nobody : ∀ thread op, threads thread ≠ .asleep op cond) :
      Signalled threads (some cond) threads
  | woken {cond : κ} {thread : τ} {op : ω} (asleep : threads thread = .asleep op cond) :
      Signalled threads (some cond) (Function.update threads thread (.awake op))

/-- The thread may run the body of `op`: it makes the call or is back from a wait in it. -/
def Enters (s : State τ ω κ σ) (thread : τ) (op : ω) : Prop :=
  s.threads thread = .outside ∨ s.threads thread = .awake op

inductive Step (body : ω → σ → Pass σ κ ρ) :
    State τ ω κ σ → Event τ ω ρ → State τ ω κ σ → Prop where
  | sleep {s : State τ ω κ σ} {thread : τ} {op : ω} {cond : κ} (enters : Enters s thread op)
      (waits : body op s.data = .wait cond) :
      Step body s (.slept thread op)
        { s with threads := Function.update s.threads thread (.asleep op cond) }
  | leave {s : State τ ω κ σ} {thread : τ} {op : ω} {result : ρ} {after : σ} {signals : Option κ}
      {threads : τ → Thread ω κ} (enters : Enters s thread op)
      (leaves : body op s.data = .leave result after signals)
      (signalled : Signalled (Function.update s.threads thread .outside) signals threads) :
      Step body s (.done thread op result) ⟨after, threads⟩
  | spurious {s : State τ ω κ σ} {thread : τ} {op : ω} {cond : κ}
      (asleep : s.threads thread = .asleep op cond) :
      Step body s (.spurious thread)
        { s with threads := Function.update s.threads thread (.awake op) }

/-- All threads outside. -/
def start (data : σ) : State τ ω κ σ := ⟨data, fun _ => .outside⟩

/-! ## Invariants of the data -/

/-- What a call says of the data when it leaves, and waits do not disturb,
holds in every run. -/
theorem data_invariant {body : ω → σ → Pass σ κ ρ} {initial : State τ ω κ σ}
    (holds : List (Event τ ω ρ) → σ → Prop) (first : holds [] initial.data)
    (leaves : ∀ {history data thread op result after signals}, holds history data →
      body op data = .leave result after signals → holds (.done thread op result :: history) after)
    (slept : ∀ {history data thread op}, holds history data →
      holds (.slept thread op :: history) data)
    (spurious : ∀ {history data thread}, holds history data →
      holds (.spurious thread :: history) data)
    {history : List (Event τ ω ρ)} {state : State τ ω κ σ}
    (run : Run (Step body) initial history state) : holds history state.data := by
  apply run.invariant (fun history state => holds history state.data) first
  intro history state event next _ held step
  cases step with
  | sleep enters waits => exact slept held
  | leave enters left signalled => exact leaves held left
  | spurious asleep => exact spurious held

/-- What the calls that returned have to report, oldest first. -/
def reports {β : Type} (report : ω → ρ → Option β) : List (Event τ ω ρ) → List β
  | [] => []
  | .done _ op result :: before => reports report before ++ (report op result).toList
  | .slept _ _ :: before => reports report before
  | .spurious _ :: before => reports report before

/-! ## Lost wakeups -/

/-- `waitsOn op` is the variable on which `op` may wait and `units cond data`
the number of calls waiting on `cond` that could be served at once.  A call
that leaves takes a unit of its own variable and adds at most one unit, to the
variable it signals. -/
structure Serves (body : ω → σ → Pass σ κ ρ) (waitsOn : ω → Option κ) (units : κ → σ → Nat) :
    Prop where
  waits : ∀ {op data cond}, body op data = .wait cond → waitsOn op = some cond ∧ units cond data = 0
  takes : ∀ {op data result after signals cond}, body op data = .leave result after signals →
    waitsOn op = some cond → units cond after < units cond data
  gives : ∀ {op data result after signals}, body op data = .leave result after signals →
    ∀ cond, signals = some cond → units cond after ≤ units cond data + 1
  keeps : ∀ {op data result after signals}, body op data = .leave result after signals →
    ∀ cond, signals ≠ some cond → units cond after ≤ units cond data

/-- A place that is not asleep hides no sleeper. -/
theorem asleep_of_update {threads : τ → Thread ω κ} {moved thread : τ} {place : Thread ω κ}
    {op : ω} {cond : κ} (up : ∀ op cond, place ≠ .asleep op cond)
    (asleep : Function.update threads moved place thread = .asleep op cond) :
    threads thread = .asleep op cond := by
  by_cases same : thread = moved
  · rw [same, Function.update_self] at asleep
    exact absurd asleep (up op cond)
  · rwa [Function.update_of_ne same] at asleep

theorem Signalled.asleep {threads threads' : τ → Thread ω κ} {signals : Option κ}
    (signalled : Signalled threads signals threads') {thread : τ} {op : ω} {cond : κ}
    (sleeps : threads' thread = .asleep op cond) : threads thread = .asleep op cond := by
  cases signalled with
  | silent => exact sleeps
  | lost nobody => exact sleeps
  | woken asleep => exact asleep_of_update (by simp) sleeps

section Wakeups

variable [DecidableEq κ]

/-- The thread is awake in a call that waits on `cond`. -/
def Thread.awakeFor (waitsOn : ω → Option κ) (cond : κ) : Thread ω κ → Bool
  | .awake op => decide (waitsOn op = some cond)
  | _ => false

variable [Fintype τ]

def awakeFor (waitsOn : ω → Option κ) (cond : κ) (threads : τ → Thread ω κ) : Finset τ :=
  Finset.univ.filter fun thread => (threads thread).awakeFor waitsOn cond = true

omit [DecidableEq τ] in
theorem mem_awakeFor {waitsOn : ω → Option κ} {cond : κ} {threads : τ → Thread ω κ} {thread : τ} :
    thread ∈ awakeFor waitsOn cond threads ↔ (threads thread).awakeFor waitsOn cond = true := by
  simp [awakeFor]

/-- A thread that sleeps, sleeps on the variable of its call; and while some
thread sleeps on a variable, there are as many threads on their way back from
it as units to be had. -/
structure Covered (waitsOn : ω → Option κ) (units : κ → σ → Nat) (s : State τ ω κ σ) : Prop where
  asleep_on : ∀ {thread op cond}, s.threads thread = .asleep op cond → waitsOn op = some cond
  covered : ∀ {thread op cond}, s.threads thread = .asleep op cond →
    units cond s.data ≤ (awakeFor waitsOn cond s.threads).card

/-- A thread moves to a place where it is not awake for `cond`: one awake thread less at most. -/
theorem card_awakeFor_update (waitsOn : ω → Option κ) (cond : κ) (threads : τ → Thread ω κ)
    (thread : τ) (place : Thread ω κ) :
    (awakeFor waitsOn cond threads).card ≤
      (awakeFor waitsOn cond (Function.update threads thread place)).card + 1 := by
  have covers : awakeFor waitsOn cond threads ⊆
      insert thread (awakeFor waitsOn cond (Function.update threads thread place)) := by
    intro other inside
    by_cases same : other = thread
    · simp [same]
    · apply Finset.mem_insert_of_mem
      rw [mem_awakeFor, Function.update_of_ne same]
      exact mem_awakeFor.mp inside
  exact (Finset.card_le_card covers).trans (Finset.card_insert_le _ _)

/-- The move of a thread that was not awake for `cond` takes nobody away. -/
theorem card_awakeFor_le (waitsOn : ω → Option κ) (cond : κ) (threads : τ → Thread ω κ)
    {thread : τ} (place : Thread ω κ) (other : (threads thread).awakeFor waitsOn cond = false) :
    (awakeFor waitsOn cond threads).card ≤
      (awakeFor waitsOn cond (Function.update threads thread place)).card := by
  apply Finset.card_le_card
  intro candidate inside
  have isAwake := mem_awakeFor.mp inside
  have differs : candidate ≠ thread := by
    intro same
    rw [same, other] at isAwake
    cases isAwake
  rw [mem_awakeFor, Function.update_of_ne differs]
  exact isAwake

/-- A thread that is woken for `cond` is one more. -/
theorem card_awakeFor_wake (waitsOn : ω → Option κ) (cond : κ) (threads : τ → Thread ω κ)
    {thread : τ} {op : ω} (was : (threads thread).awakeFor waitsOn cond = false)
    (waits : waitsOn op = some cond) :
    (awakeFor waitsOn cond threads).card + 1 ≤
      (awakeFor waitsOn cond (Function.update threads thread (.awake op))).card := by
  have fresh : thread ∉ awakeFor waitsOn cond threads := by
    intro inside
    rw [mem_awakeFor, was] at inside
    cases inside
  rw [← Finset.card_insert_of_notMem fresh]
  apply Finset.card_le_card
  intro candidate inside
  rw [mem_awakeFor]
  by_cases same : candidate = thread
  · simp [same, Thread.awakeFor, waits]
  · rw [Function.update_of_ne same]
    exact mem_awakeFor.mp (Finset.mem_of_mem_insert_of_ne inside same)

namespace Signalled

/-- A signal takes nobody off the way back. -/
theorem card_le {threads threads' : τ → Thread ω κ} {signals : Option κ}
    (signalled : Signalled threads signals threads') (waitsOn : ω → Option κ) (cond : κ) :
    (awakeFor waitsOn cond threads).card ≤ (awakeFor waitsOn cond threads').card := by
  cases signalled with
  | silent => exact Nat.le_refl _
  | lost nobody => exact Nat.le_refl _
  | woken asleep =>
      apply card_awakeFor_le
      simp [asleep, Thread.awakeFor]

/-- A signal to a variable on which a thread sleeps sends one thread on its way. -/
theorem card_lt {threads threads' : τ → Thread ω κ} {waitsOn : ω → Option κ} {cond : κ}
    (signalled : Signalled threads (some cond) threads')
    (consistent : ∀ {thread op cond}, threads thread = .asleep op cond → waitsOn op = some cond)
    {thread : τ} {op : ω} (sleeper : threads thread = .asleep op cond) :
    (awakeFor waitsOn cond threads).card + 1 ≤ (awakeFor waitsOn cond threads').card := by
  cases signalled with
  | lost nobody => exact absurd sleeper (nobody thread op)
  | woken asleep =>
      apply card_awakeFor_wake
      · simp [asleep, Thread.awakeFor]
      · exact consistent asleep

end Signalled

namespace Covered

variable {body : ω → σ → Pass σ κ ρ} {waitsOn : ω → Option κ} {units : κ → σ → Nat}

omit [DecidableEq τ] [Fintype τ] in
/-- A thread that may run `op` is awake for no variable but that of `op`. -/
theorem not_awakeFor_of_enters {s : State τ ω κ σ} {thread : τ} {op : ω} {cond : κ}
    (enters : Enters s thread op) (other : waitsOn op ≠ some cond) :
    (s.threads thread).awakeFor waitsOn cond = false := by
  rcases enters with outside | awake
  · simp [outside, Thread.awakeFor]
  · simp [awake, Thread.awakeFor, other]

omit [DecidableEq τ] in
theorem start (data : σ) : Covered waitsOn units (start data : State τ ω κ σ) := by
  constructor
  · intro _ _ _ asleep
    cases asleep
  · intro _ _ _ asleep
    cases asleep

theorem sleep (serves : Serves body waitsOn units) {s : State τ ω κ σ}
    (before : Covered waitsOn units s) {thread : τ} {op : ω} {cond : κ}
    (enters : Enters s thread op) (waits : body op s.data = .wait cond) :
    Covered waitsOn units
      { s with threads := Function.update s.threads thread (.asleep op cond) } := by
  obtain ⟨own, none⟩ := serves.waits waits
  constructor
  · intro sleeper op' cond' asleep
    change Function.update s.threads thread (.asleep op cond) sleeper = _ at asleep
    by_cases same : sleeper = thread
    · rw [same, Function.update_self] at asleep
      cases asleep
      exact own
    · rw [Function.update_of_ne same] at asleep
      exact before.asleep_on asleep
  · intro sleeper op' cond' asleep
    change Function.update s.threads thread (.asleep op cond) sleeper = _ at asleep
    change units cond' s.data ≤ _
    by_cases which : cond' = cond
    · rw [which, none]
      exact Nat.zero_le _
    · have differs : sleeper ≠ thread := by
        intro same
        rw [same, Function.update_self] at asleep
        cases asleep
        exact which rfl
      rw [Function.update_of_ne differs] at asleep
      apply (before.covered asleep).trans
      apply card_awakeFor_le
      apply not_awakeFor_of_enters enters
      rw [own]
      exact fun same => which (Option.some.inj same).symm

theorem leave (serves : Serves body waitsOn units) {s : State τ ω κ σ}
    (before : Covered waitsOn units s) {thread : τ} {op : ω} {result : ρ} {after : σ}
    {signals : Option κ} {threads : τ → Thread ω κ} (enters : Enters s thread op)
    (leaves : body op s.data = .leave result after signals)
    (signalled : Signalled (Function.update s.threads thread .outside) signals threads) :
    Covered waitsOn units (⟨after, threads⟩ : State τ ω κ σ) := by
  have consistent : ∀ {sleeper op cond},
      Function.update s.threads thread .outside sleeper = Thread.asleep op cond →
        waitsOn op = some cond :=
    fun asleep => before.asleep_on (asleep_of_update (by simp) asleep)
  constructor
  · intro sleeper op' cond asleep
    exact consistent (signalled.asleep asleep)
  · intro sleeper op' cond asleep
    have slept := signalled.asleep asleep
    have enough := before.covered (asleep_of_update (by simp) slept)
    have moved := signalled.card_le waitsOn cond
    change units cond after ≤ (awakeFor waitsOn cond threads).card
    by_cases own : waitsOn op = some cond
    · -- the thread that leaves may have been one of the awake ones, but it has taken a unit
      have fewer := serves.takes leaves own
      have atMost := card_awakeFor_update waitsOn cond s.threads thread .outside
      omega
    · have kept := card_awakeFor_le waitsOn cond s.threads .outside
        (not_awakeFor_of_enters enters own)
      by_cases aimed : signals = some cond
      · have more := serves.gives leaves cond aimed
        rw [aimed] at signalled
        have woken := signalled.card_lt consistent slept
        omega
      · have same := serves.keeps leaves cond aimed
        omega

theorem spurious {s : State τ ω κ σ} (before : Covered waitsOn units s) {thread : τ} {op : ω}
    {cond : κ} (asleep : s.threads thread = .asleep op cond) :
    Covered waitsOn units { s with threads := Function.update s.threads thread (.awake op) } := by
  constructor
  · intro sleeper op' cond' sleeps
    exact before.asleep_on (asleep_of_update (by simp) sleeps)
  · intro sleeper op' cond' sleeps
    apply (before.covered (asleep_of_update (by simp) sleeps)).trans
    apply card_awakeFor_le
    simp [asleep, Thread.awakeFor]

/-- No wakeup is lost: the covering holds in every run. -/
theorem of_run (serves : Serves body waitsOn units) {data : σ} {history : List (Event τ ω ρ)}
    {state : State τ ω κ σ} (run : Run (Step body) (Monitor.start data) history state) :
    Covered waitsOn units state := by
  apply run.invariant (fun _ state => Covered waitsOn units state) (start data)
  intro history state event next _ before step
  cases step with
  | sleep enters waits => exact before.sleep serves enters waits
  | leave enters leaves signalled => exact before.leave serves enters leaves signalled
  | spurious asleep => exact before.spurious asleep

omit [DecidableEq τ] in
/-- Where nobody is on the way back, nobody sleeps who could be served. -/
theorem units_eq_zero {s : State τ ω κ σ} (covered : Covered waitsOn units s)
    (quiet : ∀ thread op, s.threads thread ≠ .awake op) {thread : τ} {op : ω} {cond : κ}
    (asleep : s.threads thread = .asleep op cond) : units cond s.data = 0 := by
  have nobody : awakeFor waitsOn cond s.threads = ∅ := by
    apply Finset.eq_empty_of_forall_notMem
    intro candidate inside
    have isAwake := mem_awakeFor.mp inside
    cases place : s.threads candidate with
    | awake op => exact quiet candidate op place
    | outside => rw [place] at isAwake; cases isAwake
    | asleep op cond => rw [place] at isAwake; cases isAwake
  have enough := covered.covered asleep
  rw [nobody, Finset.card_empty] at enough
  exact Nat.le_zero.mp enough

end Covered

end Wakeups

end Monitor

end DvsServer.Lib
