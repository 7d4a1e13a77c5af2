import DvsServer.Core.Session
import DvsServer.Lib.Run

/-!
# The indices of the sub-session threads (`core/src/session.c`)

`sessionThrFxn` creates one thread for each group and passes the address of its loop
variable `i`, which it goes on to change in this loop and in the loop that joins the
threads.  A thread uses what it finds there as the index of its FIFO.  Creation
succeeds.
-/

namespace DvsServer.Core.SubSession

open DvsServer.Lib DvsServer.Core.Session

/-- Where a thread stands in `sessionThrFxn`. -/
inductive SessionPc where
  /-- before the first loop -/
  | start
  | test
  | create
  /-- in `usleep`, before `i++` -/
  | sleep
  /-- between the loops -/
  | between
  | joinTest
  | join
  /-- before `i++` of the second loop -/
  | joined
  /-- behind the second loop -/
  | done

/-- Where a thread stands in `subSessionThrFxn`. -/
inductive ThreadPc where
  /-- before the argument is read -/
  | start
  /-- in its loop on the FIFO with this index -/
  | running (id : Int)
  | exited
deriving DecidableEq

structure State where
  i : Int
  session : SessionPc
  /-- the number of threads created -/
  threadCount : Nat
  threads : Nat → ThreadPc

inductive Mover where
  | session
  | thread (k : Nat)

inductive Act where
  | quiet
  /-- thread `k` is created -/
  | creates (k : Nat)
  /-- `i = 0` -/
  | resets
  /-- `i++` -/
  | increments
  | reads (k : Nat) (id : Int)

abbrev History := List (Mover × Act)

def State.goto (p : State) (session : SessionPc) : State := { p with session }

def State.setThread (p : State) (k : Nat) (pc : ThreadPc) : State :=
  { p with threads := Function.update p.threads k pc }

def sessionStep (chs : Int) (p : State) : Option (Act × State) :=
  match p.session with
  | .start => some (.resets, { p with i := 0, session := .test })
  | .test => some (.quiet, p.goto (if p.i < groups chs then .create else .between))
  | .create =>
      some (.creates p.threadCount,
        { p.setThread p.threadCount .start with session := .sleep, threadCount := p.threadCount + 1 })
  | .sleep => some (.increments, { p with i := p.i + 1, session := .test })
  | .between => some (.resets, { p with i := 0, session := .joinTest })
  | .joinTest => some (.quiet, p.goto (if p.i < groups chs then .join else .done))
  | .join => if p.threads p.i.toNat = .exited then some (.quiet, p.goto .joined) else none
  | .joined => some (.increments, { p with i := p.i + 1, session := .joinTest })
  | .done => none

def threadStep (p : State) (k : Nat) : Option (Act × State) :=
  match p.threads k with
  | .start => some (.reads k p.i, p.setThread k (.running p.i))
  | .running _ => some (.quiet, p.setThread k .exited)
  | .exited => none

def subSessionExec (chs : Int) (p : State) : Mover → Option (Act × State)
  | .session => sessionStep chs p
  | .thread k => if k < p.threadCount then threadStep p k else none

structure Started (p : State) : Prop where
  session : p.session = .start
  threadCount : p.threadCount = 0

/-! ## The property -/

/-- The index thread `k` has read. -/
def fifoOf : History → Nat → Option Int
  | [], _ => none
  | (_, .reads j id) :: before, k => if j = k then some id else fifoOf before k
  | _ :: before, k => fifoOf before k

/-- Every thread uses the FIFO of the group it was created for; when all threads have
been joined every FIFO has had exactly one reader. -/
structure OneReader (chs : Int) (history : History) (p : State) : Prop where
  own : ∀ k id, fifoOf history k = some id → id = k ∧ k < groups chs
  one : p.session = .done → ∀ g < groups chs, ∃ k, fifoOf history k = some (g : Int) ∧
    ∀ j, fifoOf history j = some (g : Int) → j = k

/-- The number of iterations the session thread has finished of the loop it is in. -/
def iteration : History → Nat
  | [] => 0
  | (_, .resets) :: _ => 0
  | (_, .increments) :: before => iteration before + 1
  | _ :: before => iteration before

/-- Every thread reads its argument while a loop of the session thread is in the
iteration that created the thread or that joins it. -/
def ReadsInTime : History → Prop
  | [] => True
  | (_, .reads k _) :: before => iteration before = k ∧ ReadsInTime before
  | _ :: before => ReadsInTime before

/-! ## The invariant -/

/-- The number of threads at each place of the loops, and who has been joined. -/
def Placed (chs : Int) (iteration : Nat) (p : State) : Prop :=
  match p.session with
  | .start => p.threadCount = 0
  | .test => p.threadCount = iteration ∧ iteration ≤ groups chs
  | .create => p.threadCount = iteration ∧ iteration < groups chs
  | .sleep => p.threadCount = iteration + 1 ∧ iteration < groups chs
  | .between => p.threadCount = groups chs
  | .joinTest | .join => p.threadCount = groups chs ∧ ∀ k < iteration, p.threads k = .exited
  | .joined => p.threadCount = groups chs ∧ ∀ k < iteration + 1, p.threads k = .exited
  | .done => p.threadCount = groups chs ∧ ∀ k < groups chs, p.threads k = .exited

structure LoopOk (chs : Int) (history : History) (p : State) : Prop where
  counter : p.session ≠ .start → p.i = iteration history
  placed : Placed chs (iteration history) p
  unread : ∀ k < p.threadCount, p.threads k = .start ↔ fifoOf history k = none
  later : ∀ k, p.threadCount ≤ k → fifoOf history k = none
  timed : ReadsInTime history ↔ ∀ k id, fifoOf history k = some id → id = k

@[simp] theorem setThread_self (p : State) (k : Nat) (pc : ThreadPc) : (p.setThread k pc).threads k = pc :=
  Function.update_self ..

theorem setThread_ne {p : State} {j k : Nat} (other : j ≠ k) (pc : ThreadPc) :
    (p.setThread k pc).threads j = p.threads j :=
  Function.update_of_ne other ..

/-- The session thread goes on; no thread is created and no index is read. -/
theorem LoopOk.move {chs : Int} {history : History} {p after : State} {act : Act}
    (ok : LoopOk chs history p) (silent : ∀ k id, act ≠ .reads k id)
    (threadCount : after.threadCount = p.threadCount) (threads : after.threads = p.threads)
    (counter : after.session ≠ .start → after.i = iteration ((.session, act) :: history))
    (placed : Placed chs (iteration ((.session, act) :: history)) after) :
    LoopOk chs ((.session, act) :: history) after := by
  have fifo : ∀ k, fifoOf ((.session, act) :: history) k = fifoOf history k := by
    intro k
    cases act with
    | reads j id => exact absurd rfl (silent j id)
    | _ => rfl
  have timed : ReadsInTime ((.session, act) :: history) ↔ ReadsInTime history := by
    cases act with
    | reads j id => exact absurd rfl (silent j id)
    | _ => exact Iff.rfl
  constructor
  · exact counter
  · exact placed
  · intro k below
    rw [fifo, threads]
    rw [threadCount] at below
    exact ok.unread k below
  · intro k beyond
    rw [fifo]
    rw [threadCount] at beyond
    exact ok.later k beyond
  · rw [timed, ok.timed]
    simp only [fifo]

theorem LoopOk.create {chs : Int} {history : History} {p : State} (ok : LoopOk chs history p)
    (at_ : p.session = .create) :
    LoopOk chs ((.session, .creates p.threadCount) :: history)
      { p.setThread p.threadCount .start with session := .sleep, threadCount := p.threadCount + 1 } := by
  have placed := ok.placed
  rw [Placed, at_] at placed
  obtain ⟨count, below⟩ := placed
  constructor
  · intro _
    exact ok.counter (by rw [at_]; exact SessionPc.noConfusion)
  · exact ⟨congrArg (· + 1) count, below⟩
  · intro k inside
    have inside' : k < p.threadCount + 1 := inside
    by_cases new : k = p.threadCount
    · subst new
      exact ⟨fun _ => ok.later _ (Nat.le_refl _), fun _ => setThread_self ..⟩
    · dsimp only
      rw [setThread_ne new]
      exact ok.unread k (by omega)
  · intro k beyond
    have beyond' : p.threadCount + 1 ≤ k := beyond
    exact ok.later k (by omega)
  · exact ok.timed

theorem LoopOk.session_step {chs : Int} {history : History} {p after : State} {act : Act}
    (ok : LoopOk chs history p) (step : sessionStep chs p = some (act, after)) :
    LoopOk chs ((.session, act) :: history) after := by
  have placed := ok.placed
  unfold sessionStep at step
  cases at_ : p.session with
  | start =>
      rw [at_] at step
      rw [Placed, at_] at placed
      cases Option.some.inj step
      exact ok.move nofun rfl rfl (fun _ => rfl) ⟨placed, Nat.zero_le _⟩
  | test =>
      have counter := ok.counter (by rw [at_]; exact SessionPc.noConfusion)
      rw [at_] at step
      rw [Placed, at_] at placed
      cases Option.some.inj step
      refine ok.move nofun rfl rfl (fun _ => counter) ?_
      unfold Placed State.goto
      by_cases more : p.i < groups chs
      · simp only [more, if_true]
        exact ⟨placed.1, by rw [counter] at more; exact Int.ofNat_lt.mp more⟩
      · simp only [more, if_false]
        rw [counter] at more
        have ended : iteration history = groups chs := by
          have bound := placed.2
          omega
        exact placed.1.trans ended
  | create =>
      rw [at_] at step
      cases Option.some.inj step
      exact ok.create at_
  | sleep =>
      have counter := ok.counter (by rw [at_]; exact SessionPc.noConfusion)
      rw [at_] at step
      rw [Placed, at_] at placed
      cases Option.some.inj step
      exact ok.move nofun rfl rfl (fun _ => congrArg (· + 1) counter) ⟨placed.1, placed.2⟩
  | between =>
      rw [at_] at step
      rw [Placed, at_] at placed
      cases Option.some.inj step
      exact ok.move nofun rfl rfl (fun _ => rfl) ⟨placed, fun k below => absurd below (Nat.not_lt_zero k)⟩
  | joinTest =>
      have counter := ok.counter (by rw [at_]; exact SessionPc.noConfusion)
      rw [at_] at step
      rw [Placed, at_] at placed
      cases Option.some.inj step
      refine ok.move nofun rfl rfl (fun _ => counter) ?_
      unfold Placed State.goto
      by_cases more : p.i < groups chs
      · simp only [more, if_true]
        exact placed
      · simp only [more, if_false]
        rw [counter] at more
        exact ⟨placed.1, fun k below => placed.2 k (by omega)⟩
  | join =>
      have counter := ok.counter (by rw [at_]; exact SessionPc.noConfusion)
      rw [at_] at step
      rw [Placed, at_] at placed
      dsimp only at step
      split at step
      · rename_i exited
        cases Option.some.inj step
        refine ok.move nofun rfl rfl (fun _ => counter) ⟨placed.1, fun k below => ?_⟩
        have below' : k < iteration history + 1 := below
        rcases Nat.lt_succ_iff_lt_or_eq.mp below' with earlier | same
        · exact placed.2 k earlier
        · rw [counter, ← same] at exited
          exact exited
      · cases step
  | joined =>
      have counter := ok.counter (by rw [at_]; exact SessionPc.noConfusion)
      rw [at_] at step
      rw [Placed, at_] at placed
      cases Option.some.inj step
      exact ok.move nofun rfl rfl (fun _ => congrArg (· + 1) counter) placed
  | done =>
      rw [at_] at step
      cases step

/-- The place of the session thread is the same, and no thread comes back. -/
theorem Placed.congr {chs : Int} {n : Nat} {p after : State} (placed : Placed chs n p)
    (session : after.session = p.session) (threadCount : after.threadCount = p.threadCount)
    (exited : ∀ k, p.threads k = .exited → after.threads k = .exited) : Placed chs n after := by
  unfold Placed at placed ⊢
  rw [session, threadCount]
  cases at_ : p.session with
  | joinTest =>
      rw [at_] at placed
      exact ⟨placed.1, fun k below => exited k (placed.2 k below)⟩
  | join =>
      rw [at_] at placed
      exact ⟨placed.1, fun k below => exited k (placed.2 k below)⟩
  | joined =>
      rw [at_] at placed
      exact ⟨placed.1, fun k below => exited k (placed.2 k below)⟩
  | done =>
      rw [at_] at placed
      exact ⟨placed.1, fun k below => exited k (placed.2 k below)⟩
  | _ =>
      rw [at_] at placed
      exact placed

theorem Placed.started {chs : Int} {n : Nat} {p : State} (placed : Placed chs n p) {k : Nat}
    (below : k < p.threadCount) : p.session ≠ .start := by
  intro start
  rw [Placed, start] at placed
  omega

/-- A running thread goes on. -/
theorem setThread_exited {p : State} {k : Nat} (running : p.threads k ≠ .exited) (pc : ThreadPc) {j : Nat}
    (exited : p.threads j = .exited) : (p.setThread k pc).threads j = .exited := by
  have differs : j ≠ k := by
    rintro rfl
    exact running exited
  rw [setThread_ne differs]
  exact exited

/-- A thread reads its index. -/
theorem LoopOk.read {chs : Int} {history : History} {p : State} {k : Nat} (ok : LoopOk chs history p)
    (below : k < p.threadCount) (at_ : p.threads k = .start) :
    LoopOk chs ((.thread k, .reads k p.i) :: history) (p.setThread k (.running p.i)) := by
  have unread := (ok.unread k below).mp at_
  have counter := ok.counter (ok.placed.started below)
  have running : p.threads k ≠ .exited := by
    rw [at_]
    exact ThreadPc.noConfusion
  have fifo : ∀ j, j ≠ k → fifoOf ((.thread k, .reads k p.i) :: history) j = fifoOf history j := by
    intro j differs
    rw [fifoOf, if_neg differs.symm]
  have own : fifoOf ((.thread k, .reads k p.i) :: history) k = some p.i := by
    rw [fifoOf, if_pos rfl]
  constructor
  · exact fun _ => counter
  · exact ok.placed.congr rfl rfl fun j => setThread_exited running _
  · intro j inside
    by_cases same : j = k
    · rw [same, setThread_self, own]
      exact ⟨nofun, nofun⟩
    · rw [setThread_ne same, fifo j same]
      exact ok.unread j inside
  · intro j beyond
    have beyond' : p.threadCount ≤ j := beyond
    rw [fifo j (by omega)]
    exact ok.later j beyond'
  · rw [ReadsInTime, ok.timed]
    constructor
    · rintro ⟨now, before⟩ j id found
      by_cases same : j = k
      · rw [same, own] at found
        cases found
        rw [same, counter, now]
      · rw [fifo j same] at found
        exact before j id found
    · intro all
      constructor
      · have now := all k p.i own
        rw [counter] at now
        exact Int.ofNat.inj now
      · intro j id found
        have differs : j ≠ k := by
          rintro rfl
          rw [unread] at found
          cases found
        apply all j id
        rw [fifo j differs]
        exact found

theorem LoopOk.thread_step {chs : Int} {history : History} {p after : State} {k : Nat} {act : Act}
    (ok : LoopOk chs history p) (below : k < p.threadCount) (step : threadStep p k = some (act, after)) :
    LoopOk chs ((.thread k, act) :: history) after := by
  unfold threadStep at step
  cases at_ : p.threads k with
  | start =>
      rw [at_] at step
      cases Option.some.inj step
      exact ok.read below at_
  | running id =>
      rw [at_] at step
      cases Option.some.inj step
      have running : p.threads k ≠ .exited := by
        rw [at_]
        exact ThreadPc.noConfusion
      refine ⟨ok.counter, ok.placed.congr rfl rfl fun j => setThread_exited running _,
        fun j inside => ?_, ok.later, ok.timed⟩
      by_cases same : j = k
      · have read := (ok.unread k below).not.mp (by rw [at_]; exact ThreadPc.noConfusion)
        rw [same, setThread_self]
        exact ⟨nofun, fun unread => absurd unread read⟩
      · rw [setThread_ne same]
        exact ok.unread j inside
  | exited =>
      rw [at_] at step
      cases step

/-! ## Every run -/

theorem Started.loopOk {chs : Int} {p : State} (started : Started p) : LoopOk chs [] p := by
  refine ⟨fun past => absurd started.session past, ?_, fun k below => ?_, fun _ _ => rfl, ?_⟩
  · rw [Placed, started.session]
    exact started.threadCount
  · rw [started.threadCount] at below
    exact absurd below (Nat.not_lt_zero k)
  · exact ⟨fun _ => nofun, fun _ => trivial⟩

theorem run_loopOk {chs : Int} {start p : State} {history : History} (started : Started start)
    (run : Run (ExecStep (subSessionExec chs)) start history p) : LoopOk chs history p := by
  apply run.invariant fun history p => LoopOk chs history p
  · exact started.loopOk
  · rintro history p ⟨mover, act⟩ after _ ok step
    unfold ExecStep subSessionExec at step
    cases mover with
    | session => exact ok.session_step step
    | thread k =>
        dsimp only at step
        split at step
        · rename_i below
          exact ok.thread_step below step
        · cases step

theorem LoopOk.threadCount_le {chs : Int} {history : History} {p : State} (ok : LoopOk chs history p) :
    p.threadCount ≤ groups chs := by
  have placed := ok.placed
  unfold Placed at placed
  cases at_ : p.session with
  | start =>
      rw [at_] at placed
      dsimp only at placed
      omega
  | between =>
      rw [at_] at placed
      exact Nat.le_of_eq placed
  | _ =>
      rw [at_] at placed
      dsimp only at placed
      omega

/-- In every run the FIFOs have one reader each, the thread created for them, exactly if
every thread reads its index in time. -/
theorem one_reader_iff_reads_in_time {chs : Int} {start p : State} {history : History}
    (started : Started start) (run : Run (ExecStep (subSessionExec chs)) start history p) :
    OneReader chs history p ↔ ReadsInTime history := by
  have ok := run_loopOk started run
  rw [ok.timed]
  constructor
  · intro one k id found
    exact (one.own k id found).1
  · intro own
    refine ⟨fun k id found => ⟨own k id found, ?_⟩, fun done g below => ?_⟩
    · by_contra beyond
      have bound := ok.threadCount_le
      rw [ok.later k (by omega)] at found
      cases found
    · have placed := ok.placed
      rw [Placed, done] at placed
      have exited := placed.2 g below
      have read : fifoOf history g ≠ none := by
        intro unread
        have waits := (ok.unread g (by omega)).mpr unread
        rw [exited] at waits
        cases waits
      obtain ⟨id, found⟩ := Option.ne_none_iff_exists'.mp read
      refine ⟨g, ?_, fun j found' => ?_⟩
      · rw [found, own g id found]
      · exact (Int.ofNat.inj (own j g found')).symm

/-- `sessionThrFxn` before its first loop. -/
def before : State := ⟨0, .start, 0, fun _ => .exited⟩

theorem before_started : Started before := ⟨rfl, rfl⟩

/-- Two groups; the threads read their index at once. -/
theorem one_reader_iff_reads_in_time_two : ∃ result,
    execAll (subSessionExec 8) (List.replicate 3 .session ++ [.thread 0] ++ List.replicate 3 .session ++
      [.thread 1, .thread 0, .thread 1] ++ List.replicate 10 .session) ([], before) = some result ∧
        (OneReader 8 result.1 result.2 ↔ ReadsInTime result.1) := by
  obtain ⟨result, executed⟩ := Option.isSome_iff_exists.mp
    (show (execAll (subSessionExec 8) (List.replicate 3 .session ++ [.thread 0] ++
      List.replicate 3 .session ++ [.thread 1, .thread 0, .thread 1] ++ List.replicate 10 .session)
        ([], before)).isSome = true by decide)
  exact ⟨result, executed, one_reader_iff_reads_in_time before_started (execAll_run .nil executed)⟩

/-- The first of two threads reads its index after `i++`: both threads read 1. -/
theorem one_reader_fails : ¬ ∀ (chs : Int) (start p : State) (history : History),
    0 < chs → chs ≤ maxVideoChannel → chs % Com.RtpSend.chsPerSession = 0 → Started start →
      Run (ExecStep (subSessionExec chs)) start history p → OneReader chs history p := by
  intro claim
  have late : ((execAll (subSessionExec 8) (List.replicate 6 .session ++ [.thread 0, .thread 1])
      ([], before)).any fun (history, _) => fifoOf history 0 == some 1) = true := by
    decide
  obtain ⟨⟨history, p⟩, ran, late⟩ := (Option.any_eq_true _ _).mp late
  have one := claim 8 before p history (by decide) (by decide) (by decide) before_started
    (execAll_run .nil ran)
  exact absurd (one.own 0 1 (beq_iff_eq.mp late)).1 (by decide)

end DvsServer.Core.SubSession
