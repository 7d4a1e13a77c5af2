import DvsServer.Lib.Placement
import DvsServer.Lib.Run
import DvsServer.Osa.Que
import Mathlib.Data.Int.Interval

/-!
# Buffer pools (`utils/osa/src/osa_buf.c`)

A pool hands its buffers round between writers and readers through a queue of
empty and a queue of full ones.  The queues carry only the numbers of the
buffers; what a buffer holds is passed on in place.  The calls of all threads
interleave; `OSA_bufPutFull` and `OSA_bufPutEmpty` take two steps, since they
touch the counter of the readers before they enter a queue.
-/

namespace DvsServer.Osa.Buf

open DvsServer.Lib

abbrev osaBufNumMax : Nat := 16

abbrev osaBufIdInvalid : Int := -1

structure BufHndl (δ : Type) where
  /-- What a buffer holds, its `OSA_BufInfo` included. -/
  bufInfo : Int → δ
  curReaders : Int → Nat
  numReaders : Nat
  emptyQue : RingBuffer Int
  fullQue : RingBuffer Int
  numBuf : Nat

/-- Where a buffer is: in one of the queues, with a writer, with readers of
whom `left` have yet to give it back, or on the way into a queue. -/
inductive Place where
  | nowhere
  | empty
  | writing
  | filling
  | full
  | reading (left : Nat)
  | emptying
deriving DecidableEq

/-- The pool, and what its callers know about the buffers they hold. -/
structure State (δ : Type) where
  hndl : BufHndl δ
  place : Int → Place

inductive Op (δ : Type) where
  | getEmpty (timeout : UInt32)
  | write (bufId : Int) (content : δ)
  | putFull (bufId : Int)
  | enqueueFull (bufId : Int)
  | getFull (timeout : UInt32)
  | putEmpty (bufId : Int)
  | enqueueEmpty (bufId : Int)

/-- The status, `*bufId`, and what is in that buffer. -/
structure Return (δ : Type) where
  status : Int
  bufId : Int
  content : δ

variable {δ : Type}

/-- `OSA_bufCreate`, up to the numbers in the empty queue. -/
def bufCreate (numBuf : Nat) (numReaders : Int) (garbage : Nat → Int) (bufInfo : Int → δ) :
    Option (BufHndl δ) :=
  if osaBufNumMax < numBuf then none
  else some {
    bufInfo := bufInfo
    curReaders := fun _ => 0
    numReaders := if numReaders ≤ 0 then 1 else numReaders.toNat
    emptyQue := (List.range numBuf).foldl (fun que (i : Nat) => que.put (i : Int))
      (Que.queCreate numBuf garbage)
    fullQue := Que.queCreate numBuf garbage
    numBuf := numBuf }

/-- The buffers of a new pool are all empty. -/
def created (hndl : BufHndl δ) : State δ :=
  ⟨hndl, fun bufId => if 0 ≤ bufId ∧ bufId < hndl.numBuf then .empty else .nowhere⟩

/-- `*bufId` after `OSA_queGet`. -/
def fetched (result : Que.Return Int) : Int :=
  if result.status = osaSok then result.value.getD osaBufIdInvalid else osaBufIdInvalid

/-- The buffer changes hands, if there is one. -/
def hand (place : Int → Place) (bufId : Int) (next : Place) : Int → Place :=
  if bufId = osaBufIdInvalid then place else Function.update place bufId next

/-- One step; `none` where the call has to wait, or is not made by a caller
who holds the buffer. -/
def bufExec (s : State δ) : Op δ → Option (Return δ × State δ)
  | .getEmpty timeout =>
      match Que.queGet timeout s.hndl.emptyQue with
      | .wait _ => none
      | .leave result que _ =>
          let bufId := fetched result
          some (⟨osaSok, bufId, s.hndl.bufInfo bufId⟩,
            ⟨{ s.hndl with emptyQue := que }, hand s.place bufId .writing⟩)
  | .write bufId content =>
      if s.place bufId = .writing then
        some (⟨osaSok, bufId, content⟩,
          { s with hndl.bufInfo := Function.update s.hndl.bufInfo bufId content })
      else none
  | .putFull bufId =>
      if bufId ≥ s.hndl.numBuf ∨ bufId < 0 then
        some (⟨osaEfail, bufId, s.hndl.bufInfo bufId⟩, s)
      else if s.place bufId = .writing then
        some (⟨osaSok, bufId, s.hndl.bufInfo bufId⟩,
          ⟨{ s.hndl with curReaders := Function.update s.hndl.curReaders bufId 0 },
            Function.update s.place bufId .filling⟩)
      else none
  | .enqueueFull bufId =>
      if s.place bufId = .filling then
        match Que.quePut bufId osaTimeoutForever s.hndl.fullQue with
        | .wait _ => none
        | .leave _ que _ =>
            some (⟨osaSok, bufId, s.hndl.bufInfo bufId⟩,
              ⟨{ s.hndl with fullQue := que }, Function.update s.place bufId .full⟩)
      else none
  | .getFull timeout =>
      match Que.queGet timeout s.hndl.fullQue with
      | .wait _ => none
      | .leave result que _ =>
          let bufId := fetched result
          some (⟨osaSok, bufId, s.hndl.bufInfo bufId⟩,
            ⟨{ s.hndl with fullQue := que }, hand s.place bufId (.reading s.hndl.numReaders)⟩)
  | .putEmpty bufId =>
      if bufId ≥ s.hndl.numBuf ∨ bufId < 0 then
        some (⟨osaEfail, bufId, s.hndl.bufInfo bufId⟩, s)
      else
        match s.place bufId with
        | .reading (left + 1) =>
            let readers := s.hndl.curReaders bufId + 1
            some (⟨osaSok, bufId, s.hndl.bufInfo bufId⟩,
              ⟨{ s.hndl with curReaders := Function.update s.hndl.curReaders bufId readers },
                Function.update s.place bufId
                  (if readers = s.hndl.numReaders then .emptying else .reading left)⟩)
        | _ => none
  | .enqueueEmpty bufId =>
      if s.place bufId = .emptying then
        match Que.quePut bufId osaTimeoutForever s.hndl.emptyQue with
        | .wait _ => none
        | .leave _ que _ =>
            some (⟨osaSok, bufId, s.hndl.bufInfo bufId⟩,
              ⟨{ s.hndl with emptyQue := que }, Function.update s.place bufId .empty⟩)
      else none

/-! ## What a step can do -/

/-- The ways in which a step ends. -/
inductive Effect (s : State δ) : Op δ → Return δ → State δ → Prop where
  | gotEmpty {timeout : UInt32} (some_ : 0 < s.hndl.emptyQue.count) :
      Effect s (.getEmpty timeout)
        ⟨osaSok, s.hndl.emptyQue.front, s.hndl.bufInfo s.hndl.emptyQue.front⟩
        ⟨{ s.hndl with emptyQue := s.hndl.emptyQue.drop },
          hand s.place s.hndl.emptyQue.front .writing⟩
  | gotFull {timeout : UInt32} (some_ : 0 < s.hndl.fullQue.count) :
      Effect s (.getFull timeout)
        ⟨osaSok, s.hndl.fullQue.front, s.hndl.bufInfo s.hndl.fullQue.front⟩
        ⟨{ s.hndl with fullQue := s.hndl.fullQue.drop },
          hand s.place s.hndl.fullQue.front (.reading s.hndl.numReaders)⟩
  /-- A get that finds its queue empty, or a put of no buffer of the pool. -/
  | nothing {op : Op δ} {status bufId : Int}
      (which : (∃ timeout, op = .getEmpty timeout ∧ bufId = osaBufIdInvalid) ∨
        (∃ timeout, op = .getFull timeout ∧ bufId = osaBufIdInvalid) ∨
        op = .putFull bufId ∨ op = .putEmpty bufId ∧ status = osaEfail) :
      Effect s op ⟨status, bufId, s.hndl.bufInfo bufId⟩ s
  | written {bufId : Int} {content : δ} (holds : s.place bufId = .writing) :
      Effect s (.write bufId content) ⟨osaSok, bufId, content⟩
        { s with hndl.bufInfo := Function.update s.hndl.bufInfo bufId content }
  | reset {bufId : Int} (holds : s.place bufId = .writing) :
      Effect s (.putFull bufId) ⟨osaSok, bufId, s.hndl.bufInfo bufId⟩
        ⟨{ s.hndl with curReaders := Function.update s.hndl.curReaders bufId 0 },
          Function.update s.place bufId .filling⟩
  | queuedFull {bufId : Int} (holds : s.place bufId = .filling)
      (room : s.hndl.fullQue.count < s.hndl.fullQue.len) :
      Effect s (.enqueueFull bufId) ⟨osaSok, bufId, s.hndl.bufInfo bufId⟩
        ⟨{ s.hndl with fullQue := s.hndl.fullQue.put bufId }, Function.update s.place bufId .full⟩
  | counted {bufId : Int} {left : Nat} (holds : s.place bufId = .reading (left + 1)) :
      Effect s (.putEmpty bufId) ⟨osaSok, bufId, s.hndl.bufInfo bufId⟩
        ⟨{ s.hndl with
            curReaders := Function.update s.hndl.curReaders bufId (s.hndl.curReaders bufId + 1) },
          Function.update s.place bufId
            (if s.hndl.curReaders bufId + 1 = s.hndl.numReaders then .emptying
              else .reading left)⟩
  | queuedEmpty {bufId : Int} (holds : s.place bufId = .emptying)
      (room : s.hndl.emptyQue.count < s.hndl.emptyQue.len) :
      Effect s (.enqueueEmpty bufId) ⟨osaSok, bufId, s.hndl.bufInfo bufId⟩
        ⟨{ s.hndl with emptyQue := s.hndl.emptyQue.put bufId },
          Function.update s.place bufId .empty⟩

theorem effect_of_exec {s next : State δ} {op : Op δ} {result : Return δ}
    (taken : bufExec s op = some (result, next)) : Effect s op result next := by
  cases op with
  | getEmpty timeout =>
      simp only [bufExec] at taken
      split at taken
      · cases taken
      · rename_i got que signals leaves
        have leaves : Que.Leaves _ (.get timeout) _ _ _ := Que.leaves_of_body leaves
        cases leaves with
        | get some_ =>
            cases taken
            exact .gotEmpty some_
        | empty empty =>
            cases taken
            exact .nothing (.inl ⟨_, rfl, rfl⟩)
  | write bufId content =>
      simp only [bufExec] at taken
      split at taken
      · cases taken
        exact .written ‹_›
      · cases taken
  | putFull bufId =>
      simp only [bufExec] at taken
      split at taken
      · cases taken
        exact .nothing (.inr (.inr (.inl rfl)))
      · split at taken
        · cases taken
          exact .reset ‹_›
        · cases taken
  | enqueueFull bufId =>
      simp only [bufExec] at taken
      split at taken
      · rename_i holds
        split at taken
        · cases taken
        · rename_i got que signals leaves
          have leaves : Que.Leaves _ (.put bufId osaTimeoutForever) _ _ _ := Que.leaves_of_body leaves
          cases leaves with
          | put room =>
              cases taken
              exact .queuedFull holds room
      · cases taken
  | getFull timeout =>
      simp only [bufExec] at taken
      split at taken
      · cases taken
      · rename_i got que signals leaves
        have leaves : Que.Leaves _ (.get timeout) _ _ _ := Que.leaves_of_body leaves
        cases leaves with
        | get some_ =>
            cases taken
            exact .gotFull some_
        | empty empty =>
            cases taken
            exact .nothing (.inr (.inl ⟨_, rfl, rfl⟩))
  | putEmpty bufId =>
      simp only [bufExec] at taken
      split at taken
      · cases taken
        exact .nothing (.inr (.inr (.inr ⟨rfl, rfl⟩)))
      · split at taken
        · rename_i holds
          cases taken
          exact .counted holds
        · cases taken
  | enqueueEmpty bufId =>
      simp only [bufExec] at taken
      split at taken
      · rename_i holds
        split at taken
        · cases taken
        · rename_i got que signals leaves
          have leaves : Que.Leaves _ (.put bufId osaTimeoutForever) _ _ _ := Que.leaves_of_body leaves
          cases leaves with
          | put room =>
              cases taken
              exact .queuedEmpty holds room
      · cases taken

/-! ## The invariant -/

abbrev History (δ : Type) := List (Op δ × Return δ)

/-- The buffers that went into the full queue, with what was in them, oldest first. -/
def filled : History δ → List (Int × δ)
  | [] => []
  | (.enqueueFull bufId, result) :: before => filled before ++ [(bufId, result.content)]
  | _ :: before => filled before

/-- The buffers that readers got, with what was in them, oldest first. -/
def taken : History δ → List (Int × δ)
  | [] => []
  | (.getFull _, result) :: before =>
      if result.bufId = osaBufIdInvalid then taken before
      else taken before ++ [(result.bufId, result.content)]
  | _ :: before => taken before

/-- What was in the buffer when a reader last got it. -/
def lastTaken (bufId : Int) : History δ → Option δ
  | [] => none
  | (.getFull _, result) :: before =>
      if result.bufId = bufId then some result.content else lastTaken bufId before
  | _ :: before => lastTaken bufId before

/-- How often the buffer was given back since a reader last got it. -/
def givenBack (bufId : Int) : History δ → Nat
  | [] => 0
  | (.getFull _, result) :: before => if result.bufId = bufId then 0 else givenBack bufId before
  | (.putEmpty other, result) :: before =>
      if other = bufId ∧ result.status = osaSok then givenBack bufId before + 1
      else givenBack bufId before
  | _ :: before => givenBack bufId before

/-- The counter of the readers, what they find and how often the buffer was
given back, by the place of the buffer. -/
inductive Counts (numReaders readers : Nat) (content : δ) (last : Option δ) (back : Nat) :
    Place → Prop where
  | nowhere : Counts numReaders readers content last back .nowhere
  | empty (all : last.isSome → back = numReaders) :
      Counts numReaders readers content last back .empty
  | writing (all : last.isSome → back = numReaders) :
      Counts numReaders readers content last back .writing
  | filling (all : last.isSome → back = numReaders) (reset : readers = 0) :
      Counts numReaders readers content last back .filling
  | full (all : last.isSome → back = numReaders) (reset : readers = 0) :
      Counts numReaders readers content last back .full
  | reading {left : Nat} (some_ : 0 < left) (sum : readers + left = numReaders)
      (counted : back = readers) (stays : last = some content) :
      Counts numReaders readers content last back (.reading left)
  | emptying (all : last.isSome → back = numReaders) :
      Counts numReaders readers content last back .emptying

/-- Every buffer is in one place, and the full queue carries what was filled
and not yet taken. -/
structure Pool (history : History δ) (s : State δ) : Prop where
  emptyWf : s.hndl.emptyQue.WellFormed
  fullWf : s.hndl.fullQue.WellFormed
  emptyLen : s.hndl.emptyQue.len = s.hndl.numBuf
  fullLen : s.hndl.fullQue.len = s.hndl.numBuf
  empties : Tracks s.hndl.emptyQue.contents s.place .empty
  fulls : Tracks s.hndl.fullQue.contents s.place .full
  inPool : ∀ bufId, s.place bufId ≠ .nowhere ↔ 0 ≤ bufId ∧ bufId < s.hndl.numBuf
  positive : 0 < s.hndl.numReaders
  counts : ∀ bufId, Counts s.hndl.numReaders (s.hndl.curReaders bufId) (s.hndl.bufInfo bufId)
    (lastTaken bufId history) (givenBack bufId history) (s.place bufId)
  values : filled history = taken history ++
    s.hndl.fullQue.contents.map fun bufId => (bufId, s.hndl.bufInfo bufId)

namespace Pool

variable {history : History δ} {s : State δ}

/-- A buffer of the pool goes to another place of it. -/
theorem inPool_update (before : Pool history s) {bufId : Int} (next : Place)
    (somewhere : s.place bufId ≠ .nowhere) (named : next ≠ .nowhere) (other : Int) :
    Function.update s.place bufId next other ≠ .nowhere ↔ 0 ≤ other ∧ other < s.hndl.numBuf := by
  rw [← before.inPool other]
  by_cases same : other = bufId
  · simp [same, somewhere, named]
  · rw [Function.update_of_ne same]

/-- While a buffer is elsewhere a queue has room for it. -/
theorem room (before : Pool history s) {contents : List Int} {here : Place}
    (tracks : Tracks contents s.place here) (named : here ≠ .nowhere) (bufId : Int)
    (somewhere : s.place bufId ≠ .nowhere) (outside : s.place bufId ≠ here) :
    contents.length < s.hndl.numBuf := by
  have range : ∀ other, other ∈ Finset.Ico 0 (s.hndl.numBuf : Int) ↔ s.place other ≠ .nowhere := by
    intro other
    rw [Finset.mem_Ico, before.inPool]
  have inside : ∀ other, s.place other = here → other ∈ Finset.Ico 0 (s.hndl.numBuf : Int) := by
    intro other there
    rw [range, there]
    exact named
  have fewer := tracks.length_lt _ inside ((range bufId).mpr somewhere) outside
  rw [Int.card_Ico] at fewer
  omega

theorem hand_eq (before : Pool history s) {bufId : Int} (next : Place)
    (somewhere : s.place bufId ≠ .nowhere) :
    hand s.place bufId next = Function.update s.place bufId next := by
  have range := (before.inPool bufId).mp somewhere
  apply if_neg
  intro invalid
  rw [invalid] at range
  exact absurd range.1 (by decide)

theorem gotEmpty (before : Pool history s) {timeout : UInt32} {result : Return δ}
    (some_ : 0 < s.hndl.emptyQue.count) :
    Pool ((.getEmpty timeout, result) :: history)
      ⟨{ s.hndl with emptyQue := s.hndl.emptyQue.drop },
        hand s.place s.hndl.emptyQue.front .writing⟩ := by
  have split := RingBuffer.contents_eq_cons before.emptyWf some_
  have tracks := before.empties
  rw [split] at tracks
  have place : s.place s.hndl.emptyQue.front = .empty :=
    (tracks.mem_iff _).mp List.mem_cons_self
  rw [before.hand_eq .writing (by simp [place])]
  refine ⟨before.emptyWf.drop some_, before.fullWf, before.emptyLen, before.fullLen, ?_, ?_, ?_,
    before.positive, ?_, before.values⟩
  · exact tracks.leave (by simp)
  · exact before.fulls.frame (by simp [place]) (by simp)
  · exact before.inPool_update .writing (by simp [place]) (by simp)
  · intro bufId
    by_cases same : bufId = s.hndl.emptyQue.front
    · rw [same]
      have counts := before.counts s.hndl.emptyQue.front
      rw [place] at counts
      cases counts with
      | empty all =>
          simp only [Function.update_self]
          exact .writing all
    · simp only [Function.update_of_ne same]
      exact before.counts bufId

theorem gotFull (before : Pool history s) {timeout : UInt32} (some_ : 0 < s.hndl.fullQue.count) :
    Pool ((.getFull timeout,
        ⟨osaSok, s.hndl.fullQue.front, s.hndl.bufInfo s.hndl.fullQue.front⟩) :: history)
      ⟨{ s.hndl with fullQue := s.hndl.fullQue.drop },
        hand s.place s.hndl.fullQue.front (.reading s.hndl.numReaders)⟩ := by
  have split := RingBuffer.contents_eq_cons before.fullWf some_
  have tracks := before.fulls
  rw [split] at tracks
  have place : s.place s.hndl.fullQue.front = .full := (tracks.mem_iff _).mp List.mem_cons_self
  have valid : s.hndl.fullQue.front ≠ osaBufIdInvalid := by
    intro invalid
    have range := (before.inPool s.hndl.fullQue.front).mp (by simp [place])
    rw [invalid] at range
    exact absurd range.1 (by decide)
  rw [before.hand_eq _ (by simp [place])]
  refine ⟨before.emptyWf, before.fullWf.drop some_, before.emptyLen, before.fullLen, ?_, ?_, ?_,
    before.positive, ?_, ?_⟩
  · exact before.empties.frame (by simp [place]) (by simp)
  · exact tracks.leave (by simp)
  · exact before.inPool_update _ (by simp [place]) (by simp)
  · intro bufId
    by_cases same : bufId = s.hndl.fullQue.front
    · rw [same]
      have counts := before.counts s.hndl.fullQue.front
      rw [place] at counts
      cases counts with
      | full all reset =>
          simp only [Function.update_self, reset]
          exact .reading before.positive (Nat.zero_add _) (by simp [givenBack]) (by simp [lastTaken])
    · simp only [Function.update_of_ne same, lastTaken, givenBack, if_neg (Ne.symm same)]
      exact before.counts bufId
  · have values := before.values
    rw [split] at values
    simp [filled, taken, values, valid]

theorem nothing (before : Pool history s) {op : Op δ} {status bufId : Int} {content : δ}
    (which : (∃ timeout, op = .getEmpty timeout ∧ bufId = osaBufIdInvalid) ∨
      (∃ timeout, op = .getFull timeout ∧ bufId = osaBufIdInvalid) ∨
      op = .putFull bufId ∨ op = .putEmpty bufId ∧ status = osaEfail) :
    Pool ((op, ⟨status, bufId, content⟩) :: history) s := by
  have filledSame : filled ((op, ⟨status, bufId, content⟩) :: history) = filled history := by
    rcases which with ⟨timeout, rfl, -⟩ | ⟨timeout, rfl, -⟩ | rfl | ⟨rfl, -⟩ <;> rfl
  have takenSame : taken ((op, ⟨status, bufId, content⟩) :: history) = taken history := by
    rcases which with ⟨timeout, rfl, -⟩ | ⟨timeout, rfl, rfl⟩ | rfl | ⟨rfl, rfl⟩
    · rfl
    · simp [taken]
    · rfl
    · rfl
  refine ⟨before.emptyWf, before.fullWf, before.emptyLen, before.fullLen, before.empties,
    before.fulls, before.inPool, before.positive, ?_, ?_⟩
  · intro other
    have counts := before.counts other
    rcases which with ⟨timeout, rfl, -⟩ | ⟨timeout, rfl, rfl⟩ | rfl | ⟨rfl, rfl⟩
    · exact counts
    · by_cases invalid : osaBufIdInvalid = other
      · -- the number of no buffer is not in the pool
        have outside : s.place other = .nowhere := by
          by_contra somewhere
          have range := (before.inPool other).mp somewhere
          rw [← invalid] at range
          exact absurd range.1 (by decide)
        rw [outside]
        exact .nowhere
      · simpa [lastTaken, givenBack, invalid] using counts
    · exact counts
    · simpa [lastTaken, givenBack, osaEfail, osaSok] using counts
  · rw [filledSame, takenSame]
    exact before.values

theorem written (before : Pool history s) {bufId : Int} {content : δ} {result : Return δ}
    (holds : s.place bufId = .writing) :
    Pool ((.write bufId content, result) :: history)
      { s with hndl.bufInfo := Function.update s.hndl.bufInfo bufId content } := by
  refine ⟨before.emptyWf, before.fullWf, before.emptyLen, before.fullLen, before.empties,
    before.fulls, before.inPool, before.positive, ?_, ?_⟩
  · intro other
    by_cases same : other = bufId
    · rw [same]
      have counts := before.counts bufId
      rw [holds] at counts
      cases counts with
      | writing all =>
          simp only [holds]
          exact .writing all
    · simp only [Function.update_of_ne same]
      exact before.counts other
  · -- nobody writes to a buffer in the full queue
    have kept : ∀ other ∈ s.hndl.fullQue.contents,
        (other, Function.update s.hndl.bufInfo bufId content other) =
          (other, s.hndl.bufInfo other) := by
      intro other member
      have place := (before.fulls.mem_iff other).mp member
      have differs : other ≠ bufId := by
        intro same
        rw [same, holds] at place
        cases place
      rw [Function.update_of_ne differs]
    change filled history = taken history ++ s.hndl.fullQue.contents.map _
    rw [List.map_congr_left kept]
    exact before.values

theorem reset (before : Pool history s) {bufId : Int} {result : Return δ}
    (holds : s.place bufId = .writing) :
    Pool ((.putFull bufId, result) :: history)
      ⟨{ s.hndl with curReaders := Function.update s.hndl.curReaders bufId 0 },
        Function.update s.place bufId .filling⟩ := by
  refine ⟨before.emptyWf, before.fullWf, before.emptyLen, before.fullLen, ?_, ?_, ?_,
    before.positive, ?_, before.values⟩
  · exact before.empties.frame (by simp [holds]) (by simp)
  · exact before.fulls.frame (by simp [holds]) (by simp)
  · exact before.inPool_update _ (by simp [holds]) (by simp)
  · intro other
    by_cases same : other = bufId
    · rw [same]
      have counts := before.counts bufId
      rw [holds] at counts
      cases counts with
      | writing all =>
          simp only [Function.update_self]
          exact .filling all rfl
    · simp only [Function.update_of_ne same]
      exact before.counts other

theorem queuedFull (before : Pool history s) {bufId : Int} (holds : s.place bufId = .filling)
    (room : s.hndl.fullQue.count < s.hndl.fullQue.len) :
    Pool ((.enqueueFull bufId, ⟨osaSok, bufId, s.hndl.bufInfo bufId⟩) :: history)
      ⟨{ s.hndl with fullQue := s.hndl.fullQue.put bufId },
        Function.update s.place bufId .full⟩ := by
  have contents := RingBuffer.contents_put before.fullWf room bufId
  refine ⟨before.emptyWf, before.fullWf.put room bufId, before.emptyLen, before.fullLen, ?_, ?_, ?_,
    before.positive, ?_, ?_⟩
  · exact before.empties.frame (by simp [holds]) (by simp)
  · dsimp only
    rw [contents]
    exact before.fulls.enter (by simp [holds])
  · exact before.inPool_update _ (by simp [holds]) (by simp)
  · intro other
    by_cases same : other = bufId
    · rw [same]
      have counts := before.counts bufId
      rw [holds] at counts
      cases counts with
      | filling all reset =>
          simp only [Function.update_self]
          exact .full all reset
    · simp only [Function.update_of_ne same]
      exact before.counts other
  · simp [filled, taken, contents, before.values]

theorem counted (before : Pool history s) {bufId : Int} {left : Nat} {content : δ}
    (holds : s.place bufId = .reading (left + 1)) :
    Pool ((.putEmpty bufId, ⟨osaSok, bufId, content⟩) :: history)
      ⟨{ s.hndl with
          curReaders := Function.update s.hndl.curReaders bufId (s.hndl.curReaders bufId + 1) },
        Function.update s.place bufId
          (if s.hndl.curReaders bufId + 1 = s.hndl.numReaders then .emptying
            else .reading left)⟩ := by
  have counts := before.counts bufId
  rw [holds] at counts
  cases counts with
  | reading some_ sum counted stays =>
      by_cases last : s.hndl.curReaders bufId + 1 = s.hndl.numReaders
      · rw [if_pos last]
        refine ⟨before.emptyWf, before.fullWf, before.emptyLen, before.fullLen, ?_, ?_, ?_,
          before.positive, ?_, before.values⟩
        · exact before.empties.frame (by simp [holds]) (by simp)
        · exact before.fulls.frame (by simp [holds]) (by simp)
        · exact before.inPool_update _ (by simp [holds]) (by simp)
        · intro other
          by_cases same : other = bufId
          · rw [same]
            simp only [Function.update_self, givenBack, and_self, if_true, counted]
            exact .emptying fun _ => last
          · simp only [Function.update_of_ne same, givenBack, Ne.symm same, false_and, if_false]
            exact before.counts other
      · rw [if_neg last]
        refine ⟨before.emptyWf, before.fullWf, before.emptyLen, before.fullLen, ?_, ?_, ?_,
          before.positive, ?_, before.values⟩
        · exact before.empties.frame (by simp [holds]) (by simp)
        · exact before.fulls.frame (by simp [holds]) (by simp)
        · exact before.inPool_update _ (by simp [holds]) (by simp)
        · intro other
          by_cases same : other = bufId
          · rw [same]
            simp only [Function.update_self, givenBack, and_self, if_true, counted]
            exact .reading (by omega) (by omega) rfl stays
          · simp only [Function.update_of_ne same, givenBack, Ne.symm same, false_and, if_false]
            exact before.counts other

theorem queuedEmpty (before : Pool history s) {bufId : Int} {result : Return δ}
    (holds : s.place bufId = .emptying) (room : s.hndl.emptyQue.count < s.hndl.emptyQue.len) :
    Pool ((.enqueueEmpty bufId, result) :: history)
      ⟨{ s.hndl with emptyQue := s.hndl.emptyQue.put bufId },
        Function.update s.place bufId .empty⟩ := by
  have contents := RingBuffer.contents_put before.emptyWf room bufId
  refine ⟨before.emptyWf.put room bufId, before.fullWf, before.emptyLen, before.fullLen, ?_, ?_, ?_,
    before.positive, ?_, before.values⟩
  · dsimp only
    rw [contents]
    exact before.empties.enter (by simp [holds])
  · exact before.fulls.frame (by simp [holds]) (by simp)
  · exact before.inPool_update _ (by simp [holds]) (by simp)
  · intro other
    by_cases same : other = bufId
    · rw [same]
      have counts := before.counts bufId
      rw [holds] at counts
      cases counts with
      | emptying all =>
          simp only [Function.update_self]
          exact .empty all
    · simp only [Function.update_of_ne same]
      exact before.counts other

theorem step (before : Pool history s) {op : Op δ} {result : Return δ} {next : State δ}
    (effect : Effect s op result next) : Pool ((op, result) :: history) next := by
  cases effect with
  | gotEmpty some_ => exact before.gotEmpty some_
  | gotFull some_ => exact before.gotFull some_
  | nothing which => exact before.nothing which
  | written holds => exact before.written holds
  | reset holds => exact before.reset holds
  | queuedFull holds room => exact before.queuedFull holds room
  | counted holds => exact before.counted holds
  | queuedEmpty holds room => exact before.queuedEmpty holds room

end Pool

/-! ## Runs -/

/-- The empty queue of a new pool. -/
theorem put_range (len n : Nat) (small : n ≤ len) (garbage : Nat → Int) :
    let que := (List.range n).foldl (fun que (i : Nat) => que.put (i : Int)) (Que.queCreate len garbage)
    que.WellFormed ∧ que.len = len ∧ que.contents = (List.range n).map fun (i : Nat) => (i : Int) := by
  induction n with
  | zero => exact ⟨RingBuffer.wellFormed_create len garbage, rfl, rfl⟩
  | succ n ih =>
      obtain ⟨wf, lenEq, contents⟩ := ih (by omega)
      rw [List.range_succ, List.foldl_append]
      generalize (List.range n).foldl _ (Que.queCreate len garbage) = que at wf lenEq contents
      have counted : que.count = n := by
        rw [← RingBuffer.length_contents, contents]
        simp
      have room : que.count < que.len := by omega
      refine ⟨wf.put room _, lenEq, ?_⟩
      change (que.put (n : Int)).contents = _
      rw [RingBuffer.contents_put wf room, contents]
      simp

theorem pool_created {numBuf : Nat} {numReaders : Int} {garbage : Nat → Int} {bufInfo : Int → δ}
    {hndl : BufHndl δ} (made : bufCreate numBuf numReaders garbage bufInfo = some hndl) :
    Pool [] (created hndl) := by
  unfold bufCreate at made
  split at made
  · cases made
  · cases made
    obtain ⟨wf, len, contents⟩ := put_range numBuf numBuf (Nat.le_refl _) garbage
    refine ⟨wf, RingBuffer.wellFormed_create numBuf garbage, len, rfl, ?_, ?_, ?_, ?_, ?_, rfl⟩
    · constructor
      · simp only [created, contents]
        exact List.nodup_range.map fun i j same => Int.ofNat.inj same
      · intro bufId
        simp only [created, contents, List.mem_map, List.mem_range]
        constructor
        · rintro ⟨i, inside, rfl⟩
          simp [inside]
        · intro place
          split at place
          · rename_i range
            exact ⟨bufId.toNat, by omega, by omega⟩
          · cases place
    · constructor
      · exact List.nodup_nil
      · intro bufId
        simp only [created]
        constructor
        · intro inside
          cases inside
        · intro place
          split at place <;> cases place
    · intro bufId
      simp only [created]
      split
      · simp_all
      · simp_all
    · change 0 < if numReaders ≤ 0 then 1 else numReaders.toNat
      split
      · exact Nat.one_pos
      · omega
    · intro bufId
      by_cases range : 0 ≤ bufId ∧ bufId < (numBuf : Int)
      · simp only [created, if_pos range]
        exact .empty (by simp [lastTaken])
      · simp only [created, if_neg range]
        exact .nowhere

theorem pool_of_run {numBuf : Nat} {numReaders : Int} {garbage : Nat → Int} {bufInfo : Int → δ}
    {hndl : BufHndl δ} (made : bufCreate numBuf numReaders garbage bufInfo = some hndl)
    {history : History δ} {s : State δ} (run : Run (ExecStep bufExec) (created hndl) history s) :
    Pool history s := by
  apply run.invariant Pool
  · exact pool_created made
  · intro history state event next _ before taken
    exact before.step (effect_of_exec taken)

/-- Over every interleaving of writers and readers that put only buffers they
hold, the pool passes on contents first in, first out: what the readers got,
with what was in it when they got it, is what the writers filled, up to what
waits in the full queue; and what a reader finds does not change before the
last one has given the buffer back. -/
theorem contents_are_passed_on {numBuf : Nat} {numReaders : Int} {garbage : Nat → Int}
    {bufInfo : Int → δ} {hndl : BufHndl δ}
    (made : bufCreate numBuf numReaders garbage bufInfo = some hndl)
    {history : History δ} {s : State δ} (run : Run (ExecStep bufExec) (created hndl) history s) :
    filled history = taken history ++
        s.hndl.fullQue.contents.map (fun bufId => (bufId, s.hndl.bufInfo bufId)) ∧
      ∀ bufId left, s.place bufId = .reading left →
        lastTaken bufId history = some (s.hndl.bufInfo bufId) := by
  have pool := pool_of_run made run
  refine ⟨pool.values, ?_⟩
  intro bufId left place
  have counts := pool.counts bufId
  rw [place] at counts
  cases counts with
  | reading some_ sum counted stays => exact stays

/-- Two buffers and two readers: a buffer is filled, read and given back twice. -/
def onceRound : List (Op Nat) :=
  [.getEmpty osaTimeoutNone, .write 0 7, .putFull 0, .enqueueFull 0, .getFull osaTimeoutNone,
    .putEmpty 0, .putEmpty 0, .enqueueEmpty 0]

theorem contents_are_passed_on_onceRound : ∃ hndl history s,
    bufCreate 2 2 (fun _ => 0) (fun _ => 0) = some hndl ∧
      execAll bufExec onceRound ([], created hndl) = some (history, s) ∧
      filled history = taken history ++
        s.hndl.fullQue.contents.map (fun bufId => (bufId, s.hndl.bufInfo bufId)) := by
  obtain ⟨hndl, made⟩ : ∃ hndl, bufCreate 2 2 (fun _ => 0) (fun _ => (0 : Nat)) = some hndl :=
    ⟨_, rfl⟩
  obtain ⟨result, executed⟩ : ∃ result, execAll bufExec onceRound ([], created hndl) = some result := by
    cases made
    exact ⟨_, rfl⟩
  exact ⟨hndl, result.1, result.2, made, executed,
    (contents_are_passed_on made (execAll_run .nil executed)).1⟩

/-- Over every such interleaving each buffer is in one place: in one queue, once,
or with its holders.  So a put never waits for room; and a buffer that was read
comes back to the writers only when all readers have given it back. -/
theorem buffers_stay_in_the_pool {numBuf : Nat} {numReaders : Int} {garbage : Nat → Int}
    {bufInfo : Int → δ} {hndl : BufHndl δ}
    (made : bufCreate numBuf numReaders garbage bufInfo = some hndl)
    {history : History δ} {s : State δ} (run : Run (ExecStep bufExec) (created hndl) history s) :
    Tracks s.hndl.emptyQue.contents s.place .empty ∧ Tracks s.hndl.fullQue.contents s.place .full ∧
      (∀ bufId, s.place bufId ≠ .nowhere ↔ 0 ≤ bufId ∧ bufId < s.hndl.numBuf) ∧
      (∀ bufId, s.place bufId = .filling → (bufExec s (.enqueueFull bufId)).isSome) ∧
      (∀ bufId, s.place bufId = .emptying → (bufExec s (.enqueueEmpty bufId)).isSome) ∧
      ∀ bufId, s.place bufId = .empty ∨ s.place bufId = .writing →
        (lastTaken bufId history).isSome → givenBack bufId history = s.hndl.numReaders := by
  have pool := pool_of_run made run
  refine ⟨pool.empties, pool.fulls, pool.inPool, ?_, ?_, ?_⟩
  · intro bufId place
    have room := pool.room pool.fulls (by simp) bufId (by simp [place]) (by simp [place])
    rw [RingBuffer.length_contents, ← pool.fullLen] at room
    simp [bufExec, place, Que.quePut, room]
  · intro bufId place
    have room := pool.room pool.empties (by simp) bufId (by simp [place]) (by simp [place])
    rw [RingBuffer.length_contents, ← pool.emptyLen] at room
    simp [bufExec, place, Que.quePut, room]
  · intro bufId place last
    have counts := pool.counts bufId
    rcases place with place | place
    · rw [place] at counts
      cases counts with
      | empty all => exact all last
    · rw [place] at counts
      cases counts with
      | writing all => exact all last

theorem buffers_stay_in_the_pool_onceRound : ∃ hndl history s,
    bufCreate 2 2 (fun _ => 0) (fun _ => 0) = some hndl ∧
      execAll bufExec onceRound ([], created hndl) = some (history, s) ∧
      Tracks s.hndl.emptyQue.contents s.place .empty := by
  obtain ⟨hndl, made⟩ : ∃ hndl, bufCreate 2 2 (fun _ => 0) (fun _ => (0 : Nat)) = some hndl :=
    ⟨_, rfl⟩
  obtain ⟨result, executed⟩ : ∃ result, execAll bufExec onceRound ([], created hndl) = some result := by
    cases made
    exact ⟨_, rfl⟩
  exact ⟨hndl, result.1, result.2, made, executed,
    (buffers_stay_in_the_pool made (execAll_run .nil executed)).1⟩

end DvsServer.Osa.Buf
