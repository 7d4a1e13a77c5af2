import DvsServer.Lib.Monitor
import DvsServer.Lib.RingBuffer

/-!
# Queues between threads (`utils/osa/src/osa_que.c`, `utils/osa/src/osa_msgq.c`)

`OSA_quePut` and `OSA_queGet` work on a ring of `Int32` values under a mutex,
`OSA_msgqSend` and `OSA_msgqRecvMsg` do the same on a ring of message
pointers.  The model is generic in what is queued; a call between taking and
releasing the mutex is one pass of its loop.
-/

namespace DvsServer.Osa

open DvsServer.Lib

abbrev osaSok : Int := 0

abbrev osaEfail : Int := -1

abbrev osaTimeoutNone : UInt32 := 0

abbrev osaTimeoutForever : UInt32 := 0xFFFFFFFF

namespace Que

inductive Cond where
  | condRd
  | condWr
deriving DecidableEq

inductive Call (α : Type) where
  | put (value : α) (timeout : UInt32)
  | get (timeout : UInt32)

/-- The status, and what `*value` was set to. -/
structure Return (α : Type) where
  status : Int
  value : Option α

variable {α : Type}

def queCreate (maxLen : Nat) (garbage : Nat → α) : RingBuffer α := RingBuffer.create maxLen garbage

def quePut (value : α) (timeout : UInt32) (hndl : RingBuffer α) : Pass (RingBuffer α) Cond (Return α) :=
  if hndl.count < hndl.len then .leave ⟨osaSok, none⟩ (hndl.put value) (some .condRd)
  else if timeout = osaTimeoutNone then .leave ⟨osaEfail, none⟩ hndl none
  else .wait .condWr

def queGet (timeout : UInt32) (hndl : RingBuffer α) : Pass (RingBuffer α) Cond (Return α) :=
  if 0 < hndl.count then .leave ⟨osaSok, some hndl.front⟩ hndl.drop (some .condWr)
  else if timeout = osaTimeoutNone then .leave ⟨osaEfail, none⟩ hndl none
  else .wait .condRd

def body : Call α → RingBuffer α → Pass (RingBuffer α) Cond (Return α)
  | .put value timeout => quePut value timeout
  | .get timeout => queGet timeout

/-! ## What a call can do -/

/-- The ways in which a call leaves. -/
inductive Leaves (hndl : RingBuffer α) : Call α → Return α → RingBuffer α → Option Cond → Prop where
  | put {value : α} {timeout : UInt32} (room : hndl.count < hndl.len) :
      Leaves hndl (.put value timeout) ⟨osaSok, none⟩ (hndl.put value) (some .condRd)
  | get {timeout : UInt32} (some_ : 0 < hndl.count) :
      Leaves hndl (.get timeout) ⟨osaSok, some hndl.front⟩ hndl.drop (some .condWr)
  | full {value : α} (full : ¬ hndl.count < hndl.len) :
      Leaves hndl (.put value osaTimeoutNone) ⟨osaEfail, none⟩ hndl none
  | empty (empty : ¬ 0 < hndl.count) :
      Leaves hndl (.get osaTimeoutNone) ⟨osaEfail, none⟩ hndl none

/-- The ways in which a call waits. -/
inductive Waits (hndl : RingBuffer α) : Call α → Cond → Prop where
  | full {value : α} {timeout : UInt32} (full : ¬ hndl.count < hndl.len)
      (patient : timeout ≠ osaTimeoutNone) : Waits hndl (.put value timeout) .condWr
  | empty {timeout : UInt32} (empty : ¬ 0 < hndl.count) (patient : timeout ≠ osaTimeoutNone) :
      Waits hndl (.get timeout) .condRd

theorem leaves_of_body {call : Call α} {hndl after : RingBuffer α} {result : Return α}
    {signals : Option Cond} (done : body call hndl = .leave result after signals) :
    Leaves hndl call result after signals := by
  cases call with
  | put value timeout =>
      simp only [body, quePut] at done
      split at done
      · cases done
        exact .put ‹_›
      · split at done
        · cases done
          rename_i full none
          rw [none]
          exact .full full
        · cases done
  | get timeout =>
      simp only [body, queGet] at done
      split at done
      · cases done
        exact .get ‹_›
      · split at done
        · cases done
          rename_i empty none
          rw [none]
          exact .empty empty
        · cases done

theorem waits_of_body {call : Call α} {hndl : RingBuffer α} {cond : Cond}
    (waiting : body call hndl = .wait cond) : Waits hndl call cond := by
  cases call with
  | put value timeout =>
      simp only [body, quePut] at waiting
      split at waiting
      · cases waiting
      · split at waiting
        · cases waiting
        · cases waiting
          exact .full ‹_› ‹_›
  | get timeout =>
      simp only [body, queGet] at waiting
      split at waiting
      · cases waiting
      · split at waiting
        · cases waiting
        · cases waiting
          exact .empty ‹_› ‹_›

/-! ## First in, first out -/

/-- The value a put has stored. -/
def putValue : Call α → Return α → Option α
  | .put value _, result => if result.status = osaSok then some value else none
  | .get _, _ => none

/-- The value a get has fetched. -/
def gotValue : Call α → Return α → Option α
  | .put _ _, _ => none
  | .get _, result => result.value

section Fifo

variable {τ : Type} [DecidableEq τ]

/-- What was put is what was got followed by what is in the ring. -/
structure Accounts (maxLen : Nat) (history : List (Monitor.Event τ (Call α) (Return α)))
    (hndl : RingBuffer α) : Prop where
  wellFormed : hndl.WellFormed
  len_eq : hndl.len = maxLen
  values : Monitor.reports putValue history =
    Monitor.reports gotValue history ++ hndl.contents

omit [DecidableEq τ] in
theorem Accounts.leave {maxLen : Nat} {history : List (Monitor.Event τ (Call α) (Return α))}
    {hndl after : RingBuffer α} (before : Accounts maxLen history hndl) {thread : τ} {call : Call α}
    {result : Return α} {signals : Option Cond}
    (leaves : Leaves hndl call result after signals) :
    Accounts maxLen (.done thread call result :: history) after := by
  have wf := before.wellFormed
  have values := before.values
  cases leaves with
  | put room =>
      refine ⟨wf.put room _, before.len_eq, ?_⟩
      simp [Monitor.reports, putValue, gotValue, RingBuffer.contents_put wf room, values]
  | get some_ =>
      refine ⟨wf.drop some_, before.len_eq, ?_⟩
      simp [Monitor.reports, putValue, gotValue, values, RingBuffer.contents_eq_cons wf some_]
  | full full =>
      refine ⟨wf, before.len_eq, ?_⟩
      simp [Monitor.reports, putValue, gotValue, values]
  | empty empty =>
      refine ⟨wf, before.len_eq, ?_⟩
      simp [Monitor.reports, putValue, gotValue, values]

theorem accounts_of_run {maxLen : Nat} {garbage : Nat → α}
    {history : List (Monitor.Event τ (Call α) (Return α))}
    {state : Monitor.State τ (Call α) Cond (RingBuffer α)}
    (run : Run (Monitor.Step body) (Monitor.start (queCreate maxLen garbage)) history state) :
    Accounts maxLen history state.data := by
  apply Monitor.data_invariant (Accounts maxLen) ?_ ?_ ?_ ?_ run
  · exact ⟨RingBuffer.wellFormed_create maxLen garbage, rfl, rfl⟩
  · intro history data thread call result after signals before done
    exact before.leave (leaves_of_body done)
  · intro history data thread call before
    exact ⟨before.wellFormed, before.len_eq, before.values⟩
  · intro history data thread before
    exact ⟨before.wellFormed, before.len_eq, before.values⟩

/-- Over every interleaving of any number of threads the values come out in
the order in which they went in, none lost and none twice, and the ring never
holds more than `maxLen`. -/
theorem que_fifo {maxLen : Nat} {garbage : Nat → α}
    {history : List (Monitor.Event τ (Call α) (Return α))}
    {state : Monitor.State τ (Call α) Cond (RingBuffer α)}
    (run : Run (Monitor.Step body) (Monitor.start (queCreate maxLen garbage)) history state) :
    Monitor.reports putValue history =
        Monitor.reports gotValue history ++ state.data.contents ∧
      state.data.contents.length ≤ maxLen := by
  have accounts := accounts_of_run run
  refine ⟨accounts.values, ?_⟩
  rw [RingBuffer.length_contents, ← accounts.len_eq]
  exact accounts.wellFormed.count_le

/-- The second thread waits in a get. -/
def getterAsleep : Bool → Monitor.Thread (Call Int) Cond :=
  Function.update (fun _ => .outside) true (.asleep (.get osaTimeoutForever) .condRd)

/-- A get waits for the first value, a put stores it, and the get returns it. -/
theorem hand_over_run : ∃ state : Monitor.State Bool (Call Int) Cond (RingBuffer Int),
    Run (Monitor.Step body) (Monitor.start (queCreate 2 fun _ => 0))
      [.done true (.get osaTimeoutForever) ⟨osaSok, some 7⟩,
        .done false (.put 7 osaTimeoutForever) ⟨osaSok, none⟩,
        .slept true (.get osaTimeoutForever)] state := by
  have sleeps : Run (Monitor.Step body) (Monitor.start (queCreate 2 fun _ => 0))
      [.slept true (.get osaTimeoutForever)] ⟨queCreate 2 fun _ => 0, getterAsleep⟩ :=
    .snoc .nil (.sleep (.inl rfl) rfl)
  have puts : Run (Monitor.Step body) (Monitor.start (queCreate 2 fun _ => 0))
      [.done false (.put 7 osaTimeoutForever) ⟨osaSok, none⟩, .slept true (.get osaTimeoutForever)]
      ⟨(queCreate 2 fun _ => 0).put 7, Function.update (Function.update getterAsleep false .outside)
        true (.awake (.get osaTimeoutForever))⟩ :=
    sleeps.snoc (.leave (.inl rfl) rfl (.woken rfl))
  refine ⟨_, puts.snoc (.leave (.inr rfl) rfl (.lost ?_))⟩
  intro thread op
  cases thread <;> simp

theorem que_fifo_hand_over : ∃ state : Monitor.State Bool (Call Int) Cond (RingBuffer Int),
    [7] = [7] ++ state.data.contents ∧ state.data.contents.length ≤ 2 := by
  obtain ⟨state, run⟩ := hand_over_run
  exact ⟨state, que_fifo run⟩

end Fifo

/-! ## Wakeups -/

/-- The variable on which a call waits, when it is one that waits. -/
def waitsOn : Call α → Option Cond
  | .put _ timeout => if timeout = osaTimeoutNone then none else some .condWr
  | .get timeout => if timeout = osaTimeoutNone then none else some .condRd

/-- How many gets, and how many puts, the ring can serve. -/
def units : Cond → RingBuffer α → Nat
  | .condRd, hndl => hndl.count
  | .condWr, hndl => hndl.len - hndl.count

theorem serves : Monitor.Serves (body (α := α)) waitsOn units := by
  constructor
  · intro call hndl cond waiting
    cases waits_of_body waiting with
    | full full patient =>
        refine ⟨if_neg patient, ?_⟩
        simp only [units]
        omega
    | empty empty patient =>
        refine ⟨if_neg patient, ?_⟩
        simp only [units]
        omega
  · intro call hndl result after signals cond done own
    cases leaves_of_body done with
    | put room =>
        have which : cond = .condWr := by
          simp only [waitsOn] at own
          split at own <;> simp_all
        rw [which]
        simp only [units, RingBuffer.put]
        omega
    | get some_ =>
        have which : cond = .condRd := by
          simp only [waitsOn] at own
          split at own <;> simp_all
        rw [which]
        simp only [units, RingBuffer.drop]
        omega
    | full full => simp [waitsOn] at own
    | empty empty => simp [waitsOn] at own
  · intro call hndl result after signals done cond aimed
    cases leaves_of_body done with
    | put room =>
        cases aimed
        exact Nat.le_refl _
    | get some_ =>
        cases aimed
        simp only [units, RingBuffer.drop]
        omega
    | full full => cases aimed
    | empty empty => cases aimed
  · intro call hndl result after signals done cond aimed
    cases leaves_of_body done with
    | put room =>
        cases cond with
        | condRd => exact absurd rfl aimed
        | condWr =>
            simp only [units, RingBuffer.put]
            omega
    | get some_ =>
        cases cond with
        | condRd =>
            simp only [units, RingBuffer.drop]
            omega
        | condWr => exact absurd rfl aimed
    | full full => exact Nat.le_refl _
    | empty empty => exact Nat.le_refl _

section Wakeups

variable {τ : Type} [DecidableEq τ] [Fintype τ]

/-- Over every interleaving, while a thread sleeps in a get there are as many
getting threads on their way back to the mutex as values in the ring, and
while one sleeps in a put as many putting threads as free cells.  So where
nobody is on the way back the sleeping gets see an empty ring and the sleeping
puts a full one, and not both kinds sleep. -/
theorem que_no_lost_wakeup {maxLen : Nat} {garbage : Nat → α}
    {history : List (Monitor.Event τ (Call α) (Return α))}
    {state : Monitor.State τ (Call α) Cond (RingBuffer α)}
    (run : Run (Monitor.Step body) (Monitor.start (queCreate maxLen garbage)) history state) :
    (∀ thread call, state.threads thread = .asleep call .condRd →
      state.data.count ≤ (Monitor.awakeFor waitsOn .condRd state.threads).card) ∧
    (∀ thread call, state.threads thread = .asleep call .condWr →
      maxLen - state.data.count ≤ (Monitor.awakeFor waitsOn .condWr state.threads).card) ∧
    ((∀ thread call, state.threads thread ≠ .awake call) → 0 < maxLen →
      ∀ reader writer call call', state.threads reader = .asleep call .condRd →
        state.threads writer ≠ .asleep call' .condWr) := by
  have covered := Monitor.Covered.of_run serves run
  have accounts := accounts_of_run run
  refine ⟨fun thread call asleep => covered.covered asleep, ?_, ?_⟩
  · intro thread call asleep
    rw [← accounts.len_eq]
    exact covered.covered asleep
  · intro quiet positive reader writer call call' reads writes
    have empty := covered.units_eq_zero quiet reads
    have full := covered.units_eq_zero quiet writes
    have len := accounts.len_eq
    simp only [units] at empty full
    omega

def gettersAsleep : Fin 3 → Monitor.Thread (Call Int) Cond :=
  Function.update
    (Function.update (fun _ => .outside) 1 (.asleep (.get osaTimeoutForever) .condRd))
    2 (.asleep (.get osaTimeoutForever) .condRd)

/-- Two gets wait and one value is put: one get still sleeps, the other is on
its way to the value. -/
theorem que_no_lost_wakeup_two_getters :
    ∃ state : Monitor.State (Fin 3) (Call Int) Cond (RingBuffer Int),
      state.threads 2 = .asleep (.get osaTimeoutForever) .condRd ∧ state.data.count = 1 ∧
        1 ≤ (Monitor.awakeFor waitsOn .condRd state.threads).card := by
  have sleep : Run (Monitor.Step body) (Monitor.start (queCreate 2 fun _ => 0))
      [.slept 2 (.get osaTimeoutForever), .slept 1 (.get osaTimeoutForever)]
      ⟨queCreate 2 fun _ => 0, gettersAsleep⟩ :=
    (Run.nil.snoc (.sleep (.inl rfl) rfl)).snoc (.sleep (.inl rfl) rfl)
  have puts : Run (Monitor.Step body) (Monitor.start (queCreate 2 fun _ => 0))
      [.done 0 (.put 7 osaTimeoutForever) ⟨osaSok, none⟩, .slept 2 (.get osaTimeoutForever),
        .slept 1 (.get osaTimeoutForever)]
      ⟨(queCreate 2 fun _ => 0).put 7, Function.update (Function.update gettersAsleep 0 .outside)
        1 (.awake (.get osaTimeoutForever))⟩ :=
    sleep.snoc (.leave (.inl rfl) rfl (.woken rfl))
  exact ⟨_, rfl, rfl, (que_no_lost_wakeup puts).1 2 (.get osaTimeoutForever) rfl⟩

end Wakeups

end Que

end DvsServer.Osa
