import DvsServer.Osa.Que

/-!
# Counting semaphores (`utils/osa/src/osa_sem.c`)

`OSA_semSignal` drops a signal that finds the count at its maximum, and
signals the condition variable only when it has raised the count.
-/

namespace DvsServer.Osa.Sem

open DvsServer.Lib

structure SemHndl where
  count : Nat
  maxCount : Nat
deriving DecidableEq

inductive Call where
  | wait (timeout : UInt32)
  | signal

def semCreate (maxCount initVal : Nat) : SemHndl :=
  let max := if maxCount = 0 then 1 else maxCount
  ⟨if max < initVal then max else initVal, max⟩

def semWait (timeout : UInt32) (hndl : SemHndl) : Pass SemHndl Unit Int :=
  if 0 < hndl.count then .leave osaSok { hndl with count := hndl.count - 1 } none
  else if timeout = osaTimeoutNone then .leave osaEfail hndl none
  else .wait ()

def semSignal (hndl : SemHndl) : Pass SemHndl Unit Int :=
  if hndl.count < hndl.maxCount then
    .leave osaSok { hndl with count := hndl.count + 1 } (some ())
  else .leave osaSok hndl none

def body : Call → SemHndl → Pass SemHndl Unit Int
  | .wait timeout => semWait timeout
  | .signal => semSignal

/-- The ways in which a call leaves. -/
inductive Leaves (hndl : SemHndl) : Call → Int → SemHndl → Option Unit → Prop where
  | taken {timeout : UInt32} (some_ : 0 < hndl.count) :
      Leaves hndl (.wait timeout) osaSok { hndl with count := hndl.count - 1 } none
  | refused (none_ : hndl.count = 0) : Leaves hndl (.wait osaTimeoutNone) osaEfail hndl none
  | raised (room : hndl.count < hndl.maxCount) :
      Leaves hndl .signal osaSok { hndl with count := hndl.count + 1 } (some ())
  | dropped (full : ¬ hndl.count < hndl.maxCount) : Leaves hndl .signal osaSok hndl none

theorem leaves_of_body {call : Call} {hndl after : SemHndl} {result : Int} {signals : Option Unit}
    (done : body call hndl = .leave result after signals) :
    Leaves hndl call result after signals := by
  cases call with
  | wait timeout =>
      simp only [body, semWait] at done
      split at done
      · cases done
        exact .taken ‹_›
      · rename_i empty
        split at done
        · cases done
          rename_i none
          rw [none]
          exact .refused (Nat.eq_zero_of_not_pos empty)
        · cases done
  | signal =>
      simp only [body, semSignal] at done
      split at done
      · cases done
        exact .raised ‹_›
      · cases done
        exact .dropped ‹_›

/-- Only a wait with a timeout sleeps, and only on the count zero. -/
theorem waits_of_body {call : Call} {hndl : SemHndl} {cond : Unit}
    (waiting : body call hndl = .wait cond) :
    hndl.count = 0 ∧ ∃ timeout, timeout ≠ osaTimeoutNone ∧ call = .wait timeout := by
  cases call with
  | wait timeout =>
      simp only [body, semWait] at waiting
      split at waiting
      · cases waiting
      · rename_i empty
        split at waiting
        · cases waiting
        · exact ⟨Nat.eq_zero_of_not_pos empty, timeout, ‹_›, rfl⟩
  | signal =>
      simp only [body, semSignal] at waiting
      split at waiting <;> cases waiting

def waitsOn : Call → Option Unit
  | .wait timeout => if timeout = osaTimeoutNone then none else some ()
  | .signal => none

def units : Unit → SemHndl → Nat := fun _ hndl => hndl.count

theorem serves : Monitor.Serves body waitsOn units := by
  constructor
  · intro call hndl cond waiting
    obtain ⟨empty, timeout, patient, rfl⟩ := waits_of_body waiting
    exact ⟨if_neg patient, empty⟩
  · intro call hndl result after signals cond done own
    cases leaves_of_body done with
    | taken some_ =>
        simp only [units]
        omega
    | refused none_ => simp [waitsOn] at own
    | raised room => cases own
    | dropped full => cases own
  · intro call hndl result after signals done cond aimed
    cases leaves_of_body done with
    | taken some_ => cases aimed
    | refused none_ => cases aimed
    | raised room => exact Nat.le_refl _
    | dropped full => cases aimed
  · intro call hndl result after signals done cond aimed
    cases leaves_of_body done with
    | taken some_ =>
        simp only [units]
        omega
    | refused none_ => exact Nat.le_refl _
    | raised room => exact absurd rfl aimed
    | dropped full => exact Nat.le_refl _

/-! ## Accounts -/

/-- A wait that got a unit. -/
def took : Call → Int → Option Unit
  | .wait _, status => if status = osaSok then some () else none
  | .signal, _ => none

def signalled : Call → Int → Option Unit
  | .wait _, _ => none
  | .signal, _ => some ()

variable {τ : Type}

def waitsServed (history : List (Monitor.Event τ Call Int)) : Nat :=
  (Monitor.reports took history).length

def signalsGiven (history : List (Monitor.Event τ Call Int)) : Nat :=
  (Monitor.reports signalled history).length

@[simp] theorem waitsServed_done (history : List (Monitor.Event τ Call Int)) (thread : τ)
    (call : Call) (result : Int) :
    waitsServed (.done thread call result :: history) =
      waitsServed history + (took call result).toList.length :=
  List.length_append

@[simp] theorem signalsGiven_done (history : List (Monitor.Event τ Call Int)) (thread : τ)
    (call : Call) (result : Int) :
    signalsGiven (.done thread call result :: history) =
      signalsGiven history + (signalled call result).toList.length :=
  List.length_append

/-- The count against the calls that returned.  The bound is an equation as
long as the signals cannot have met the maximum. -/
structure Accounts (created : SemHndl) (history : List (Monitor.Event τ Call Int))
    (hndl : SemHndl) : Prop where
  maxCount_eq : hndl.maxCount = created.maxCount
  count_le : hndl.count ≤ created.maxCount
  served_le : waitsServed history + hndl.count ≤ created.count + signalsGiven history
  served_eq : created.count + signalsGiven history ≤ created.maxCount →
    waitsServed history + hndl.count = created.count + signalsGiven history

theorem semCreate_count_le (maxCount initVal : Nat) :
    (semCreate maxCount initVal).count ≤ (semCreate maxCount initVal).maxCount := by
  simp only [semCreate]
  generalize (if maxCount = 0 then 1 else maxCount) = max
  split <;> omega

theorem Accounts.leave {created hndl after : SemHndl} {history : List (Monitor.Event τ Call Int)}
    (before : Accounts created history hndl) {thread : τ} {call : Call} {result : Int}
    {signals : Option Unit} (leaves : Leaves hndl call result after signals) :
    Accounts created (.done thread call result :: history) after := by
  obtain ⟨maxCount_eq, count_le, served_le, served_eq⟩ := before
  cases leaves with
  | taken some_ =>
      refine ⟨maxCount_eq, (Nat.sub_le _ _).trans count_le, ?_, ?_⟩
      · simp only [waitsServed_done, signalsGiven_done, took, signalled, if_pos, Option.toList,
          List.length_cons, List.length_nil]
        omega
      · simp only [waitsServed_done, signalsGiven_done, took, signalled, if_pos, Option.toList,
          List.length_cons, List.length_nil]
        intro room
        have equal := served_eq room
        omega
  | refused none_ =>
      refine ⟨maxCount_eq, count_le, ?_, ?_⟩
      · simpa [took, signalled] using served_le
      · simpa [took, signalled] using served_eq
  | raised room =>
      refine ⟨maxCount_eq, maxCount_eq ▸ room, ?_, ?_⟩
      · simp only [waitsServed_done, signalsGiven_done, took, signalled, Option.toList,
          List.length_cons, List.length_nil]
        omega
      · simp only [waitsServed_done, signalsGiven_done, took, signalled, Option.toList,
          List.length_cons, List.length_nil]
        intro bounded
        have equal := served_eq (by omega)
        omega
  | dropped full =>
      refine ⟨maxCount_eq, count_le, ?_, ?_⟩
      · simp only [waitsServed_done, signalsGiven_done, took, signalled, Option.toList,
          List.length_cons, List.length_nil]
        omega
      · simp only [waitsServed_done, signalsGiven_done, took, signalled, Option.toList,
          List.length_cons, List.length_nil]
        intro bounded
        have equal := served_eq (by omega)
        omega

variable [DecidableEq τ]

theorem accounts_of_run {created : SemHndl} (bounded : created.count ≤ created.maxCount)
    {history : List (Monitor.Event τ Call Int)} {state : Monitor.State τ Call Unit SemHndl}
    (run : Run (Monitor.Step body) (Monitor.start created) history state) :
    Accounts created history state.data := by
  apply Monitor.data_invariant (Accounts created) ?_ ?_ ?_ ?_ run
  · refine ⟨rfl, bounded, ?_, fun _ => ?_⟩
    · simp [waitsServed, signalsGiven, Monitor.reports, Monitor.start]
    · simp [waitsServed, signalsGiven, Monitor.reports, Monitor.start]
  · intro history data thread call result after signals before done
    exact before.leave (leaves_of_body done)
  · intro history data thread call before
    exact ⟨before.maxCount_eq, before.count_le, before.served_le, before.served_eq⟩
  · intro history data thread before
    exact ⟨before.maxCount_eq, before.count_le, before.served_le, before.served_eq⟩

variable [Fintype τ]

/-- Over every interleaving no more waits are served than there were units,
exactly as many as long as no signal can have been dropped, and a thread
sleeps only while every unit has a thread on its way to it. -/
theorem sem_counts (maxCount initVal : Nat) {history : List (Monitor.Event τ Call Int)}
    {state : Monitor.State τ Call Unit SemHndl}
    (run : Run (Monitor.Step body) (Monitor.start (semCreate maxCount initVal)) history state) :
    Accounts (semCreate maxCount initVal) history state.data ∧
    (∀ thread call, state.threads thread = .asleep call () →
      state.data.count ≤ (Monitor.awakeFor waitsOn () state.threads).card) ∧
    ((∀ thread call, state.threads thread ≠ .awake call) →
      ∀ thread call, state.threads thread = .asleep call () → state.data.count = 0) := by
  have covered := Monitor.Covered.of_run serves run
  refine ⟨accounts_of_run (semCreate_count_le maxCount initVal) run, ?_, ?_⟩
  · intro thread call asleep
    exact covered.covered asleep
  · intro quiet thread call asleep
    exact covered.units_eq_zero quiet asleep

/-- A wait sleeps, a signal wakes it, and a wait of the other thread comes first. -/
theorem sem_counts_overtaken :
    ∃ state : Monitor.State Bool Call Unit SemHndl,
      Accounts (semCreate 1 0) [.slept true (.wait osaTimeoutForever),
          .done false (.wait osaTimeoutNone) osaSok, .done false .signal osaSok,
          .slept true (.wait osaTimeoutForever)] state.data := by
  have sleeps : Run (Monitor.Step body) (Monitor.start (semCreate 1 0))
      [.slept true (.wait osaTimeoutForever)]
      ⟨semCreate 1 0, Function.update (fun _ => .outside) true
        (.asleep (.wait osaTimeoutForever) ())⟩ :=
    .snoc .nil (.sleep (.inl rfl) rfl)
  have raised := sleeps.snoc (.leave (.inl rfl) rfl (.woken rfl) :
    Monitor.Step body _ (.done false .signal osaSok)
      ⟨⟨1, 1⟩, Function.update (Function.update _ false .outside) true
        (.awake (.wait osaTimeoutForever))⟩)
  have taken := raised.snoc (.leave (.inl rfl) rfl .silent :
    Monitor.Step body _ (.done false (.wait osaTimeoutNone) osaSok) ⟨⟨0, 1⟩, _⟩)
  exact ⟨_, (sem_counts 1 0 (taken.snoc (.sleep (.inr rfl) rfl))).1⟩

end DvsServer.Osa.Sem
