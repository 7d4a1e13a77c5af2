import DvsServer.Lib.Links
import DvsServer.Lib.Run
import DvsServer.Ortp.Receive

/-!
# The pointers of a queue (`utils/ortp/src/str_utils.c`, `rtpmod.c`)

A `queue_t` is a doubly linked list between two messages of its own.  Messages
are named by their addresses; `none` is the use of a null pointer.
-/

namespace DvsServer.Ortp.Queue

open DvsServer.Lib

abbrev Addr := Nat

/-- The two ends that are part of a `queue_t`. -/
structure Ends where
  first : Addr
  last : Addr

/-- `b_next` and `b_prev` of the messages, and `q_mcount`. -/
structure QueueMem where
  links : Links Addr
  mcount : Int

variable (q : Ends)

/-- `mblk_init`, of the links of a queue -/
def mblkInit (links : Links Addr) (mp : Addr) : Links Addr :=
  (links.setPrev mp none).setNext mp none

/-- `qinit` -/
def qinit (links : Links Addr) : QueueMem :=
  let links := mblkInit links q.first
  let links := mblkInit links q.last
  let links := links.setNext q.first (some q.last)
  ⟨links.setPrev q.last (some q.first), 0⟩

def qempty (s : QueueMem) : Bool := some q.last == s.links.next q.first

def qfirst (s : QueueMem) : Option Addr :=
  if s.links.next q.first ≠ some q.last then s.links.next q.first else none

def qlast (s : QueueMem) : Option Addr :=
  if s.links.prev q.last ≠ some q.first then s.links.prev q.last else none

def qend (mp : Addr) : Bool := mp == q.first || mp == q.last

/-- `putq` -/
def putq (s : QueueMem) (mp : Addr) : Option QueueMem := do
  let last ← s.links.prev q.last
  let links := s.links.setNext last (some mp)
  let links := links.setPrev mp (links.prev q.last)
  let links := links.setNext mp (some q.last)
  let links := links.setPrev q.last (some mp)
  some ⟨links, s.mcount + 1⟩

/-- `getq` -/
def getq (s : QueueMem) : Option (Option Addr × QueueMem) := do
  let tmp ← s.links.next q.first
  if tmp = q.last then some (none, s)
  else
    let links := s.links.setNext q.first (s.links.next tmp)
    let behind ← links.next tmp
    let links := links.setPrev behind (some q.first)
    let links := links.setPrev tmp none
    let links := links.setNext tmp none
    some (some tmp, ⟨links, s.mcount - 1⟩)

/-- `peekq` -/
def peekq (s : QueueMem) : Option (Option Addr) := do
  let tmp ← s.links.next q.first
  if tmp = q.last then some none else some (some tmp)

/-- `insq` -/
def insq (s : QueueMem) (emp : Option Addr) (mp : Addr) : Option QueueMem :=
  match emp with
  | none => putq q s mp
  | some emp => do
      let before ← s.links.prev emp
      let links := s.links.setNext before (some mp)
      let links := links.setPrev mp (links.prev emp)
      let links := links.setPrev emp (some mp)
      let links := links.setNext mp (some emp)
      some ⟨links, s.mcount + 1⟩

/-- `remq` -/
def remq (s : QueueMem) (mp : Addr) : Option QueueMem := do
  let before ← s.links.prev mp
  let links := s.links.setNext before (s.links.next mp)
  let behind ← links.next mp
  let links := links.setPrev behind (links.prev mp)
  let links := links.setNext mp none
  let links := links.setPrev mp none
  some ⟨links, s.mcount - 1⟩

/-- More than any walk through the queue takes. -/
def steps (s : QueueMem) : Nat := s.mcount.toNat + 1

/-- What a call gives back and which messages it frees. -/
structure Outcome where
  given : Option Addr
  freed : List Addr

/-- The loop of `rtp_putq`, from the last message to the first. -/
def rtpPutqLoop (packet : Addr → Packet) (s : QueueMem) (mp : Addr) :
    Nat → Addr → Option (Outcome × QueueMem)
  | 0, _ => none
  | fuel + 1, tmp =>
      if qend q tmp then (insq q s (qfirst q s) mp).map fun s => (⟨none, []⟩, s)
      else if (packet mp).seq = (packet tmp).seq then some (⟨none, [mp]⟩, s)
      else if rtpSeqIsGreater (packet mp).seq (packet tmp).seq then
        (insq q s (s.links.next tmp) mp).map fun s => (⟨none, []⟩, s)
      else do
        let before ← s.links.prev tmp
        rtpPutqLoop packet s mp fuel before

/-- `rtp_putq` -/
def rtpPutq (packet : Addr → Packet) (s : QueueMem) (mp : Addr) :
    Option (Outcome × QueueMem) :=
  if qempty q s then (putq q s mp).map fun s => (⟨none, []⟩, s)
  else do
    let tmp ← qlast q s
    rtpPutqLoop q packet s mp (steps s) tmp

/-- The loop of `rtp_getq` with the message found so far, whose timestamp is
`tsFound`, and those that were freed. -/
def rtpGetqLoop (packet : Addr → Packet) (timestamp : BitVec 32) :
    Nat → Option Addr → BitVec 32 → List Addr → QueueMem → Option (Outcome × QueueMem)
  | 0, _, _, _, _ => none
  | fuel + 1, ret, tsFound, freed, s =>
      match qfirst q s with
      | none => some (⟨ret, freed⟩, s)
      | some tmp =>
          if rtpTimestampIsNewerThan timestamp (packet tmp).ts then
            if ret ≠ none ∧ (packet tmp).ts = tsFound then some (⟨ret, freed⟩, s)
            else do
              let (ret', s) ← getq q s
              rtpGetqLoop packet timestamp fuel ret' (packet tmp).ts (freed ++ ret.toList) s
          else some (⟨ret, freed⟩, s)

/-- `rtp_getq` -/
def rtpGetq (packet : Addr → Packet) (s : QueueMem) (timestamp : BitVec 32) :
    Option (Outcome × QueueMem) :=
  if qempty q s then some (⟨none, []⟩, s)
  else do
    let oldest ← qfirst q s
    if rtpTimestampIsStrictlyNewerThan (packet oldest).ts timestamp then some (⟨none, []⟩, s)
    else rtpGetqLoop q packet timestamp (steps s) none 0 [] s

/-- The loop of `split_and_queue` that removes the oldest messages. -/
def shrink (maxrqsz : Nat) : Nat → List Addr → QueueMem → Option (Outcome × QueueMem)
  | 0, _, _ => none
  | fuel + 1, freed, s =>
      if (maxrqsz : Int) < s.mcount then do
        let (tmp, s) ← getq q s
        shrink maxrqsz fuel (freed ++ tmp.toList) s
      else some (⟨none, freed⟩, s)

/-- `flushq` -/
def flushq : Nat → List Addr → QueueMem → Option (Outcome × QueueMem)
  | 0, _, _ => none
  | fuel + 1, freed, s => do
      let (mp, s) ← getq q s
      match mp with
      | none => some (⟨none, freed⟩, s)
      | some mp => flushq fuel (freed ++ [mp]) s

/-! ## What the pointers stand for -/

/-- The messages of the queue, from the first to the last. -/
structure Holds (s : QueueMem) (items : List Addr) : Prop where
  linked : s.links.Linked (q.first :: items ++ [q.last])
  once : (q.first :: items ++ [q.last]).Nodup
  counted : s.mcount = items.length

variable {q} {s : QueueMem} {items above below : List Addr} {mp : Addr}

namespace Holds

theorem length_lt_steps (holds : Holds q s items) : items.length < steps s := by
  rw [steps, holds.counted, Int.toNat_natCast]
  exact Nat.lt_succ_self _

theorem not_last (holds : Holds q s items) (inside : mp ∈ items) : mp ≠ q.last := by
  have once := (List.nodup_append.mp (List.nodup_cons.mp holds.once).2).2.2
  exact once mp inside q.last (List.mem_singleton_self _)

theorem not_first (holds : Holds q s items) (inside : mp ∈ items) : mp ≠ q.first := by
  rintro rfl
  exact (List.nodup_cons.mp holds.once).1 (List.mem_append_left _ inside)

/-- What lies before and behind a place in the queue. -/
theorem exists_around (q : Ends) (above below : List Addr) : ∃ front a b back,
    q.first :: above = front ++ [a] ∧ below ++ [q.last] = b :: back := by
  have before := List.dropLast_append_getLast (List.cons_ne_nil q.first above)
  cases below with
  | nil => exact ⟨_, _, q.last, [], before.symm, rfl⟩
  | cons b rest => exact ⟨_, _, b, rest ++ [q.last], before.symm, rfl⟩

theorem around {front back : List Addr} {a b : Addr} (before : q.first :: above = front ++ [a])
    (behind : below ++ [q.last] = b :: back) :
    q.first :: (above ++ below) ++ [q.last] = front ++ a :: b :: back := by
  rw [← behind]
  calc q.first :: (above ++ below) ++ [q.last]
      = (q.first :: above) ++ (below ++ [q.last]) := by simp
    _ = front ++ a :: (below ++ [q.last]) := by rw [before]; simp

theorem around_cons {front back : List Addr} {a b : Addr}
    (before : q.first :: above = front ++ [a]) (behind : below ++ [q.last] = b :: back) :
    q.first :: (above ++ mp :: below) ++ [q.last] = front ++ a :: mp :: b :: back :=
  around before (by rw [List.cons_append, behind])

theorem joined (holds : Holds q s (above ++ below)) {front back : List Addr} {a b : Addr}
    (before : q.first :: above = front ++ [a]) (behind : below ++ [q.last] = b :: back) :
    s.links.Joined a b := by
  have linked := holds.linked
  rw [around before behind] at linked
  exact Links.Linked.joined linked

/-- `insq` -/
theorem insq (holds : Holds q s (above ++ below)) {back : List Addr} {emp : Addr}
    (behind : below ++ [q.last] = emp :: back)
    (new : mp ∉ q.first :: (above ++ below) ++ [q.last]) :
    ∃ s', insq q s (some emp) mp = some s' ∧ Holds q s' (above ++ mp :: below) := by
  obtain ⟨front, a, _, _, before, -⟩ := exists_around q above below
  obtain ⟨forth, backward⟩ := holds.joined before behind
  have linked := holds.linked
  have once := holds.once
  rw [around before behind] at linked once new
  have newA : a ≠ mp := by
    rintro rfl
    exact new (by simp)
  have newB : emp ≠ mp := by
    rintro rfl
    exact new (by simp)
  have inserts : Links.Inserts s.links
      ((((s.links.setNext a (some mp)).setPrev mp (s.links.prev emp)).setPrev emp
        (some mp)).setNext mp (some emp)) a mp emp := by
    constructor
    · constructor
      · rw [Links.next_setNext_ne _ _ newA, Links.next_setPrev, Links.next_setPrev,
          Links.next_setNext]
      · rw [Links.prev_setNext, Links.prev_setPrev_ne _ _ newB.symm, Links.prev_setPrev, backward]
    · constructor
      · rw [Links.next_setNext]
      · rw [Links.prev_setNext, Links.prev_setPrev]
    · intro c notA notNew
      rw [Links.next_setNext_ne _ _ notNew, Links.next_setPrev, Links.next_setPrev,
        Links.next_setNext_ne _ _ notA]
    · intro c notB notNew
      rw [Links.prev_setNext, Links.prev_setPrev_ne _ _ notB, Links.prev_setPrev_ne _ _ notNew,
        Links.prev_setNext]
  generalize moved : (((s.links.setNext a (some mp)).setPrev mp (s.links.prev emp)).setPrev emp
    (some mp)).setNext mp (some emp) = links at inserts
  refine ⟨⟨links, s.mcount + 1⟩, ?_, ⟨?_, ?_, ?_⟩⟩
  rotate_left
  · rw [around_cons before behind]
    exact inserts.linked linked once new
  · rw [around_cons before behind]
    have swapped : (front ++ a :: mp :: emp :: back).Perm (mp :: (front ++ a :: emp :: back)) := by
      have middle : ((front ++ [a]) ++ mp :: emp :: back).Perm
          (mp :: ((front ++ [a]) ++ emp :: back)) := List.perm_middle
      simpa using middle
    exact swapped.nodup_iff.mpr (List.nodup_cons.mpr ⟨new, once⟩)
  · dsimp only
    rw [holds.counted]
    simp only [List.length_append, List.length_cons]
    omega
  · simp only [Queue.insq, backward, Links.prev_setNext, Option.bind_eq_bind, Option.bind_some,
      ← moved]

/-- `remq` -/
theorem remq (holds : Holds q s (above ++ mp :: below)) :
    ∃ s', remq s mp = some s' ∧ Holds q s' (above ++ below) := by
  obtain ⟨front, a, b, back, before, behind⟩ := exists_around q above below
  have linked := holds.linked
  have once := holds.once
  rw [around_cons before behind] at linked once
  obtain ⟨-, ⟨forth, backward⟩, rest⟩ := List.isChain_append_cons_cons.mp linked
  obtain ⟨⟨forth', backward'⟩, -⟩ := List.isChain_cons_cons.mp rest
  have second := List.nodup_cons.mp (List.nodup_append.mp once).2.1
  have third := List.nodup_cons.mp second.2
  have notA : mp ≠ a := by
    rintro rfl
    exact second.1 (by simp)
  have notB : b ≠ mp := by
    rintro rfl
    exact third.1 (by simp)
  have unlinks : Links.Unlinks s.links
      ((((s.links.setNext a (some b)).setPrev b (some a)).setNext mp none).setPrev mp none) a mp
        b := by
    constructor
    · constructor
      · rw [Links.next_setPrev, Links.next_setNext_ne _ _ notA.symm, Links.next_setPrev,
          Links.next_setNext]
      · rw [Links.prev_setPrev_ne _ _ notB, Links.prev_setNext, Links.prev_setPrev]
    · intro c notA notMp
      rw [Links.next_setPrev, Links.next_setNext_ne _ _ notMp, Links.next_setPrev,
        Links.next_setNext_ne _ _ notA]
    · intro c notB notMp
      rw [Links.prev_setPrev_ne _ _ notMp, Links.prev_setNext, Links.prev_setPrev_ne _ _ notB,
        Links.prev_setNext]
  generalize moved : (((s.links.setNext a (some b)).setPrev b (some a)).setNext mp none).setPrev mp none = links at unlinks
  refine ⟨⟨links, s.mcount - 1⟩, ?_, ⟨?_, ?_, ?_⟩⟩
  rotate_left
  · rw [around before behind]
    exact unlinks.linked linked once
  · have fewer : (q.first :: (above ++ below) ++ [q.last]).Sublist
        (q.first :: (above ++ mp :: below) ++ [q.last]) := by simp
    exact fewer.nodup holds.once
  · dsimp only
    rw [holds.counted]
    simp only [List.length_append, List.length_cons]
    omega
  · simp only [Queue.remq, backward, forth', Links.next_setNext_ne _ _ notA, Links.prev_setNext,
      Option.bind_eq_bind, Option.bind_some, ← moved]

/-- Where `b_next` of the first end points. -/
theorem next_first (holds : Holds q s items) :
    s.links.next q.first = some (items.headD q.last) := by
  have linked := holds.linked
  cases items with
  | nil => exact (List.isChain_cons_cons.mp linked).1.1
  | cons a rest => exact (List.isChain_cons_cons.mp linked).1.1

theorem prev_last (holds : Holds q s items) :
    s.links.prev q.last = some ((q.first :: items).getLast (List.cons_ne_nil _ _)) := by
  have whole : Holds q s (items ++ []) := by rw [List.append_nil]; exact holds
  have before := List.dropLast_append_getLast (List.cons_ne_nil q.first items)
  exact (whole.joined before.symm (List.nil_append _)).2

theorem qempty_iff (holds : Holds q s items) : qempty q s = true ↔ items = [] := by
  rw [qempty, holds.next_first, beq_iff_eq, Option.some.injEq]
  cases items with
  | nil => simp
  | cons a rest => simpa using (holds.not_last List.mem_cons_self).symm

theorem qfirst_eq (holds : Holds q s items) : qfirst q s = items.head? := by
  rw [qfirst, holds.next_first]
  cases items with
  | nil => simp
  | cons a rest => simpa using holds.not_last List.mem_cons_self

theorem qlast_eq (holds : Holds q s items) : qlast q s = items.getLast? := by
  rw [qlast, holds.prev_last]
  rcases List.eq_nil_or_concat items with rfl | ⟨front, a, rfl⟩
  · simp
  · have other := holds.not_first (show a ∈ front.concat a by simp)
    simpa using other

theorem qend_of_mem (holds : Holds q s items) (inside : mp ∈ items) : qend q mp = false := by
  simp [qend, holds.not_first inside, holds.not_last inside]

/-- `putq` -/
theorem putq (holds : Holds q s items) (new : mp ∉ q.first :: items ++ [q.last]) :
    ∃ s', putq q s mp = some s' ∧ Holds q s' (items ++ [mp]) := by
  have whole : Holds q s (items ++ []) := by rw [List.append_nil]; exact holds
  rw [← List.append_nil items] at new
  obtain ⟨s', put, holds'⟩ := whole.insq (List.nil_append _) new
  exact ⟨s', put, holds'⟩

/-- `insq` in front of the first message, if there is one. -/
theorem insq_front (holds : Holds q s items) (new : mp ∉ q.first :: items ++ [q.last]) :
    ∃ s', Queue.insq q s (qfirst q s) mp = some s' ∧ Holds q s' (mp :: items) := by
  rw [holds.qfirst_eq]
  cases items with
  | nil => exact holds.putq new
  | cons a rest =>
      have whole : Holds q s ([] ++ a :: rest) := holds
      exact whole.insq (show a :: rest ++ [q.last] = a :: (rest ++ [q.last]) from rfl) new

/-- `getq` -/
theorem getq (holds : Holds q s items) :
    ∃ s', getq q s = some (items.head?, s') ∧ Holds q s' items.tail := by
  have next := holds.next_first
  cases items with
  | nil =>
      refine ⟨s, ?_, holds⟩
      simp [Queue.getq, next]
  | cons a rest =>
      have last := holds.not_last (List.mem_cons_self (a := a))
      have first := holds.not_first (List.mem_cons_self (a := a))
      have whole : Holds q s ([] ++ a :: rest) := holds
      obtain ⟨s', removed, holds'⟩ := whole.remq
      refine ⟨s', ?_, holds'⟩
      obtain ⟨⟨-, backward⟩, -⟩ := List.isChain_cons_cons.mp holds.linked
      simp only [Queue.remq, backward, Option.bind_eq_bind, Option.bind_some,
        Links.prev_setNext] at removed
      simp only [Queue.getq, next, List.headD_cons, if_neg last, Option.bind_eq_bind,
        Option.bind_some, List.head?_cons]
      obtain ⟨behind, found, same⟩ := Option.bind_eq_some_iff.mp removed
      rw [found, Option.bind_some, ← Option.some.inj same]
      rfl

/-- `peekq` -/
theorem peekq (holds : Holds q s items) : peekq q s = some items.head? := by
  have next := holds.next_first
  cases items with
  | nil => simp [Queue.peekq, next]
  | cons a rest =>
      have last := holds.not_last (List.mem_cons_self (a := a))
      simp [Queue.peekq, next, last]

end Holds

/-! ## Putting and getting by number -/

/-- What `rtp_putq` has made of the queue, when the list of packets has become
`result`. -/
inductive PutsMsg (packet : Addr → Packet) (items : List Addr) (mp : Addr) :
    Option (List Packet) → Outcome → List Addr → Prop where
  | queued {above below : List Addr} (split : items = above ++ below) :
      PutsMsg packet items mp (some ((above ++ mp :: below).map packet)) ⟨none, []⟩
        (above ++ mp :: below)
  | duplicate : PutsMsg packet items mp none ⟨none, [mp]⟩ items

theorem rtpPutqLoop_spec (packet : Addr → Packet) {fuel : Nat}
    (holds : Holds q s (above.reverse ++ below))
    (new : mp ∉ q.first :: (above.reverse ++ below) ++ [q.last]) (enough : above.length < fuel) :
    ∃ out s' items', rtpPutqLoop q packet s mp fuel (above.headD q.first) = some (out, s') ∧
      Holds q s' items' ∧ PutsMsg packet (above.reverse ++ below) mp
        (RtpMod.putqLoop (packet mp) (above.map packet) (below.map packet)) out items' := by
  induction above generalizing below fuel with
  | nil =>
      obtain ⟨fuel, rfl⟩ := exists_fuel enough
      obtain ⟨s', put, holds'⟩ := holds.insq_front new
      refine ⟨⟨none, []⟩, s', mp :: below, ?_, holds',
        .queued (show [].reverse ++ below = [] ++ below from rfl)⟩
      simp [rtpPutqLoop, qend, put]
  | cons tmp above ih =>
      obtain ⟨fuel, rfl⟩ := exists_fuel enough
      have regroup : (tmp :: above).reverse ++ below = above.reverse ++ tmp :: below := by simp
      rw [regroup] at holds new ⊢
      have notEnd := holds.qend_of_mem (show tmp ∈ above.reverse ++ tmp :: below by simp)
      simp only [List.map_cons, List.headD_cons]
      by_cases same : (packet mp).seq = (packet tmp).seq
      · refine ⟨⟨none, [mp]⟩, s, _, ?_, holds, ?_⟩
        · simp [rtpPutqLoop, notEnd, same]
        · rw [RtpMod.putqLoop, if_pos same]
          exact .duplicate
      · by_cases greater : rtpSeqIsGreater (packet mp).seq (packet tmp).seq = true
        · -- behind `tmp`
          obtain ⟨_, _, b, back, -, behind⟩ := Holds.exists_around q [] below
          have whole : Holds q s ((above.reverse ++ [tmp]) ++ below) := by simpa using holds
          have new' : mp ∉ q.first :: ((above.reverse ++ [tmp]) ++ below) ++ [q.last] := by
            simpa using new
          have next := (whole.joined (by rw [← List.cons_append]) behind).1
          obtain ⟨s', put, holds'⟩ := whole.insq behind new'
          refine ⟨⟨none, []⟩, s', _, ?_, holds', ?_⟩
          · simp [rtpPutqLoop, notEnd, same, greater, next, put]
          · have queued : PutsMsg packet (above.reverse ++ tmp :: below) mp _ _ _ := .queued
              (show above.reverse ++ tmp :: below = (above.reverse ++ [tmp]) ++ below by simp)
            rw [RtpMod.putqLoop, if_neg same, if_pos greater]
            simpa using queued
        · obtain ⟨out, s', items', looped, holds', puts⟩ :=
            ih holds new (Nat.lt_of_succ_lt_succ enough)
          have before := List.dropLast_append_getLast (List.cons_ne_nil q.first above.reverse)
          have prev := (holds.joined before.symm (List.cons_append)).2
          have head : (q.first :: above.reverse).getLast (List.cons_ne_nil _ _) =
              above.headD q.first := by
            cases above with
            | nil => rfl
            | cons a rest => simp
          refine ⟨out, s', items', ?_, holds', ?_⟩
          · simp only [rtpPutqLoop, notEnd, same, greater, prev, head, if_false, looped,
              Option.bind_eq_bind, Option.bind_some, Bool.false_eq_true]
          · rw [RtpMod.putqLoop, if_neg same, if_neg greater]
            exact puts

/-- `rtp_putq` -/
theorem rtpPutq_spec (holds : Holds q s items) (packet : Addr → Packet)
    (new : mp ∉ q.first :: items ++ [q.last]) :
    ∃ out s' items', rtpPutq q packet s mp = some (out, s') ∧ Holds q s' items' ∧
      PutsMsg packet items mp (RtpMod.rtpPutq (items.map packet) (packet mp)) out items' := by
  by_cases none_ : items = []
  · rw [none_] at holds new ⊢
    obtain ⟨s', put, holds'⟩ := holds.putq new
    refine ⟨⟨none, []⟩, s', [mp], ?_, holds', .queued (show [] = [] ++ [] from rfl)⟩
    simp [rtpPutq, holds.qempty_iff.mpr, put]
  · have some_ : qempty q s = false := by
      rw [← Bool.not_eq_true, holds.qempty_iff]
      exact none_
    have whole : Holds q s (items.reverse.reverse ++ []) := by simpa using holds
    have enough : items.reverse.length < steps s := by
      rw [List.length_reverse]
      exact holds.length_lt_steps
    obtain ⟨out, s', items', looped, holds', puts⟩ :=
      rtpPutqLoop_spec packet whole (by simpa using new) enough
    have last : qlast q s = some (items.reverse.headD q.first) := by
      rw [holds.qlast_eq]
      rcases List.eq_nil_or_concat items with rfl | ⟨front, a, rfl⟩
      · exact absurd rfl none_
      · simp
    refine ⟨out, s', items', ?_, holds', ?_⟩
    · simp only [rtpPutq, some_, last, Bool.false_eq_true, if_false, Option.bind_eq_bind,
        Option.bind_some, looped]
    · simpa [RtpMod.rtpPutq] using puts

/-- What `rtp_getq` has made of the queue, when the list of packets gives
`result`: nothing is lost and nothing is freed twice. -/
structure GetsMsg (packet : Addr → Packet) (held : List Addr) (result : RtpMod.Getq)
    (out : Outcome) (items' : List Addr) : Prop where
  ret : out.given.map packet = result.ret
  queue : items'.map packet = result.queue
  rejected : out.freed.length = result.rejected
  whole : held = out.freed ++ (out.given.toList ++ items')

theorem rtpGetqLoop_spec (packet : Addr → Packet) (timestamp : BitVec 32) {fuel : Nat}
    (ret : Option Addr) (tsFound : BitVec 32) (freed : List Addr) (holds : Holds q s items)
    (found : ∀ a, ret = some a → tsFound = (packet a).ts) (enough : items.length < fuel) :
    ∃ out s' items', rtpGetqLoop q packet timestamp fuel ret tsFound freed s = some (out, s') ∧
      Holds q s' items' ∧ GetsMsg packet (freed ++ (ret.toList ++ items))
        (RtpMod.getqLoop timestamp (ret.map packet) (items.map packet) freed.length) out items' := by
  induction items generalizing s fuel ret tsFound freed with
  | nil =>
      obtain ⟨fuel, rfl⟩ := exists_fuel enough
      refine ⟨⟨ret, freed⟩, s, [], ?_, holds, ?_⟩
      · rw [rtpGetqLoop, holds.qfirst_eq]
        rfl
      · rw [List.map_nil, RtpMod.getqLoop]
        exact ⟨rfl, rfl, rfl, rfl⟩
  | cons tmp rest ih =>
      obtain ⟨fuel, rfl⟩ := exists_fuel enough
      have first : qfirst q s = some tmp := holds.qfirst_eq
      obtain ⟨s', got, holds'⟩ := holds.getq
      rw [List.head?_cons, List.tail_cons] at *
      have shorter := Nat.lt_of_succ_lt_succ enough
      by_cases due : rtpTimestampIsNewerThan timestamp (packet tmp).ts = true
      · cases ret with
        | none =>
            obtain ⟨out, s'', items', looped, holds'', gets⟩ :=
              ih (some tmp) (packet tmp).ts freed holds' (fun a same => by cases same; rfl) shorter
            refine ⟨out, s'', items', ?_, holds'', ?_⟩
            · simp [rtpGetqLoop, first, due, got, looped]
            · simpa [RtpMod.getqLoop, due] using gets
        | some a =>
            have known := found a rfl
            by_cases same : (packet tmp).ts = (packet a).ts
            · refine ⟨⟨some a, freed⟩, s, tmp :: rest, ?_, holds, ?_⟩
              · simp [rtpGetqLoop, first, known, same]
              · simp only [Option.map_some, List.map_cons, RtpMod.getqLoop, due, if_true]
                rw [if_pos same]
                exact ⟨rfl, rfl, rfl, rfl⟩
            · obtain ⟨out, s'', items', looped, holds'', gets⟩ :=
                ih (some tmp) (packet tmp).ts (freed ++ [a]) holds'
                  (fun a same => by cases same; rfl) shorter
              refine ⟨out, s'', items', ?_, holds'', ?_⟩
              · simp [rtpGetqLoop, first, due, known, same, got, looped]
              · simpa [RtpMod.getqLoop, due, same] using gets
      · refine ⟨⟨ret, freed⟩, s, tmp :: rest, ?_, holds, ?_⟩
        · simp [rtpGetqLoop, first, due]
        · cases ret with
          | none =>
              simp only [Option.map_none, List.map_cons, RtpMod.getqLoop, due, if_false,
                Bool.false_eq_true]
              exact ⟨rfl, rfl, rfl, rfl⟩
          | some a =>
              simp only [Option.map_some, List.map_cons, RtpMod.getqLoop, due, if_false,
                Bool.false_eq_true]
              exact ⟨rfl, rfl, rfl, rfl⟩

/-- `rtp_getq` -/
theorem rtpGetq_spec (holds : Holds q s items) (packet : Addr → Packet)
    (timestamp : BitVec 32) :
    ∃ out s' items', rtpGetq q packet s timestamp = some (out, s') ∧ Holds q s' items' ∧
      GetsMsg packet items (RtpMod.rtpGetq (items.map packet) timestamp) out items' := by
  have enough := holds.length_lt_steps
  cases items with
  | nil =>
      refine ⟨⟨none, []⟩, s, [], ?_, holds, rfl, rfl, rfl, rfl⟩
      simp [rtpGetq, holds.qempty_iff.mpr]
  | cons oldest rest =>
      have some_ : qempty q s = false := by
        rw [← Bool.not_eq_true, holds.qempty_iff]
        exact List.cons_ne_nil oldest rest
      have first : qfirst q s = some oldest := holds.qfirst_eq
      by_cases early : rtpTimestampIsStrictlyNewerThan (packet oldest).ts timestamp = true
      · refine ⟨⟨none, []⟩, s, oldest :: rest, ?_, holds, ?_⟩
        · simp [rtpGetq, some_, first, early]
        · simp only [List.map_cons, RtpMod.rtpGetq, early, if_true]
          exact ⟨rfl, rfl, rfl, rfl⟩
      · obtain ⟨out, s', items', looped, holds', gets⟩ :=
          rtpGetqLoop_spec packet timestamp none 0 [] holds (fun a same => by cases same) enough
        refine ⟨out, s', items', ?_, holds', ?_⟩
        · simp only [rtpGetq, some_, first, early, Bool.false_eq_true, if_false,
            Option.bind_eq_bind, Option.bind_some, looped]
        · simpa [RtpMod.rtpGetq, early] using gets

/-- The loop of `split_and_queue` frees what is too much, from the first on. -/
theorem shrink_spec (maxrqsz : Nat) {fuel : Nat} (freed : List Addr) (holds : Holds q s items)
    (enough : items.length < fuel) :
    ∃ s', shrink q maxrqsz fuel freed s =
        some (⟨none, freed ++ items.take (items.length - maxrqsz)⟩, s') ∧
      Holds q s' (items.drop (items.length - maxrqsz)) := by
  induction items generalizing s fuel freed with
  | nil =>
      obtain ⟨fuel, rfl⟩ := exists_fuel enough
      have counted := holds.counted
      refine ⟨s, ?_, by simpa using holds⟩
      simp [shrink, counted]
  | cons tmp rest ih =>
      obtain ⟨fuel, rfl⟩ := exists_fuel enough
      have counted := holds.counted
      by_cases full : maxrqsz < (tmp :: rest).length
      · obtain ⟨s', got, holds'⟩ := holds.getq
        obtain ⟨s'', looped, holds''⟩ :=
          ih (freed ++ [tmp]) holds' (Nat.lt_of_succ_lt_succ enough)
        have more : (tmp :: rest).length - maxrqsz = (rest.length - maxrqsz) + 1 := by
          rw [List.length_cons] at full ⊢
          omega
        refine ⟨s'', ?_, by rw [more, List.drop_succ_cons]; exact holds''⟩
        have many : (maxrqsz : Int) < s.mcount := by
          rw [counted]
          exact Int.ofNat_lt.mpr full
        rw [more, List.take_succ_cons]
        simpa [shrink, many, got] using looped
      · have nothing : (tmp :: rest).length - maxrqsz = 0 := by omega
        refine ⟨s, ?_, by rw [nothing, List.drop_zero]; exact holds⟩
        have few : ¬ ((maxrqsz : Int) < s.mcount) := by
          rw [counted]
          omega
        rw [nothing, List.take_zero, List.append_nil, shrink, if_neg few]

/-- `flushq` frees all of them. -/
theorem flushq_spec {fuel : Nat} (freed : List Addr) (holds : Holds q s items)
    (enough : items.length < fuel) :
    ∃ s', flushq q fuel freed s = some (⟨none, freed ++ items⟩, s') ∧ Holds q s' [] := by
  induction items generalizing s fuel freed with
  | nil =>
      obtain ⟨fuel, rfl⟩ := exists_fuel enough
      obtain ⟨s', got, holds'⟩ := holds.getq
      refine ⟨s', ?_, holds'⟩
      simp [flushq, got]
  | cons tmp rest ih =>
      obtain ⟨fuel, rfl⟩ := exists_fuel enough
      obtain ⟨s', got, holds'⟩ := holds.getq
      obtain ⟨s'', looped, holds''⟩ :=
        ih (freed ++ [tmp]) holds' (Nat.lt_of_succ_lt_succ enough)
      refine ⟨s'', ?_, holds''⟩
      simpa [flushq, got] using looped

/-! ## Runs -/

inductive Op where
  | putq (mp : Addr)
  | getq
  | peekq
  | insq (emp : Option Addr) (mp : Addr)
  | remq (mp : Addr)
  | flushq
  | rtpPutq (packet : Addr → Packet) (mp : Addr)
  | rtpGetq (packet : Addr → Packet) (timestamp : BitVec 32)
  | shrink (maxrqsz : Nat)

def queueExec (q : Ends) (s : QueueMem) : Op → Option (Outcome × QueueMem)
  | .putq mp => (putq q s mp).map fun s => (⟨none, []⟩, s)
  | .getq => (getq q s).map fun got => (⟨got.1, []⟩, got.2)
  | .peekq => (peekq q s).map fun mp => (⟨mp, []⟩, s)
  | .insq emp mp => (insq q s emp mp).map fun s => (⟨none, []⟩, s)
  | .remq mp => (remq s mp).map fun s => (⟨none, []⟩, s)
  | .flushq => flushq q (steps s) [] s
  | .rtpPutq packet mp => rtpPutq q packet s mp
  | .rtpGetq packet timestamp => rtpGetq q packet s timestamp
  | .shrink maxrqsz => shrink q maxrqsz (steps s) [] s

/-- The walk along `b_next` until `qend`. -/
def walk (q : Ends) (links : Links Addr) : Nat → Option Addr → List Addr
  | 0, _ => []
  | _ + 1, none => []
  | fuel + 1, some mp => if qend q mp then [] else mp :: walk q links fuel (links.next mp)

/-- The messages that a walk through the queue sees. -/
def queued (q : Ends) (s : QueueMem) : List Addr :=
  walk q s.links (steps s) (s.links.next q.first)

/-- A message is put into the queue when it is not there, and taken out or used
as a place when it is. -/
def Allowed (q : Ends) (items : List Addr) : Op → Prop
  | .putq mp => mp ∉ q.first :: items ++ [q.last]
  | .insq emp mp => (∀ a ∈ emp, a ∈ items) ∧ mp ∉ q.first :: items ++ [q.last]
  | .remq mp => mp ∈ items
  | .rtpPutq _ mp => mp ∉ q.first :: items ++ [q.last]
  | _ => True

/-- What a call makes of the list of messages. -/
def Means (items : List Addr) (out : Outcome) (items' : List Addr) : Op → Prop
  | .putq mp => out = ⟨none, []⟩ ∧ items' = items ++ [mp]
  | .getq => out = ⟨items.head?, []⟩ ∧ items' = items.tail
  | .peekq => out = ⟨items.head?, []⟩ ∧ items' = items
  | .insq none mp => out = ⟨none, []⟩ ∧ items' = items ++ [mp]
  | .insq (some emp) mp => out = ⟨none, []⟩ ∧ ∃ above below,
      items = above ++ emp :: below ∧ items' = above ++ mp :: emp :: below
  | .remq mp => out = ⟨none, []⟩ ∧ ∃ above below,
      items = above ++ mp :: below ∧ items' = above ++ below
  | .flushq => out = ⟨none, items⟩ ∧ items' = []
  | .rtpPutq packet mp =>
      PutsMsg packet items mp (RtpMod.rtpPutq (items.map packet) (packet mp)) out items'
  | .rtpGetq packet timestamp =>
      GetsMsg packet items (RtpMod.rtpGetq (items.map packet) timestamp) out items'
  | .shrink maxrqsz => out.given = none ∧ items = out.freed ++ items' ∧ ∀ packet : Addr → Packet,
      Receive.shrink maxrqsz (items.map packet) = (items'.map packet, out.freed.length)

structure Event where
  op : Op
  out : Outcome

def Calls (q : Ends) (s : QueueMem) (e : Event) (s' : QueueMem) : Prop :=
  Allowed q (queued q s) e.op ∧ queueExec q s e.op = some (e.out, s')

namespace Holds

theorem walk_eq (holds : Holds q s (above ++ below)) {fuel : Nat} (enough : below.length < fuel) :
    walk q s.links fuel (some (below.headD q.last)) = below := by
  induction below generalizing above fuel with
  | nil =>
      obtain ⟨fuel, rfl⟩ := exists_fuel enough
      simp [walk, qend]
  | cons a rest ih =>
      obtain ⟨fuel, rfl⟩ := exists_fuel enough
      have notEnd := holds.qend_of_mem (show a ∈ above ++ a :: rest by simp)
      have whole : Holds q s ((above ++ [a]) ++ rest) := by simpa using holds
      obtain ⟨_, _, b, back, -, behind⟩ := exists_around q [] rest
      have next := (whole.joined (by rw [← List.cons_append]) behind).1
      have head : rest.headD q.last = b := by
        cases rest with
        | nil => exact (List.cons.inj behind).1
        | cons c rest => exact (List.cons.inj behind).1
      have later := ih whole (Nat.lt_of_succ_lt_succ enough)
      rw [head] at later
      simp [walk, notEnd, next, later]

theorem queued_eq (holds : Holds q s items) : queued q s = items := by
  have enough := holds.length_lt_steps
  rw [queued, holds.next_first]
  exact walk_eq (show Holds q s ([] ++ items) from holds) enough

theorem qinit (apart : q.first ≠ q.last) (links : Links Addr) :
    Holds q (qinit q links) [] := by
  refine ⟨?_, ?_, rfl⟩
  · refine List.isChain_pair.mpr ⟨?_, ?_⟩
    · simp [Queue.qinit]
    · simp [Queue.qinit]
  · simpa using apart

/-- One call is defined and does to the pointers what it means for the list. -/
theorem means (holds : Holds q s items) {op : Op} (allowed : Allowed q items op) :
    ∃ out s' items', queueExec q s op = some (out, s') ∧ Holds q s' items' ∧
      Means items out items' op := by
  have enough := holds.length_lt_steps
  cases op with
  | putq mp =>
      obtain ⟨s', put, holds'⟩ := holds.putq allowed
      exact ⟨_, s', _, by simp [queueExec, put], holds', rfl, rfl⟩
  | getq =>
      obtain ⟨s', got, holds'⟩ := holds.getq
      exact ⟨_, s', _, by simp [queueExec, got], holds', rfl, rfl⟩
  | peekq => exact ⟨_, s, _, by simp [queueExec, holds.peekq], holds, rfl, rfl⟩
  | insq emp mp =>
      obtain ⟨place, new⟩ := allowed
      cases emp with
      | none =>
          obtain ⟨s', put, holds'⟩ := holds.putq new
          exact ⟨_, s', _, by simp [queueExec, Queue.insq, put], holds', rfl, rfl⟩
      | some emp =>
          obtain ⟨above, below, rfl⟩ := List.append_of_mem (place emp rfl)
          obtain ⟨s', put, holds'⟩ :=
            holds.insq (show emp :: below ++ [q.last] = emp :: (below ++ [q.last]) from rfl) new
          exact ⟨_, s', _, by simp [queueExec, put], holds', rfl, above, below, rfl, rfl⟩
  | remq mp =>
      obtain ⟨above, below, rfl⟩ := List.append_of_mem allowed
      obtain ⟨s', removed, holds'⟩ := holds.remq
      exact ⟨_, s', _, by simp [queueExec, removed], holds', rfl, above, below, rfl, rfl⟩
  | flushq =>
      obtain ⟨s', flushed, holds'⟩ := flushq_spec [] holds enough
      exact ⟨_, s', _, flushed, holds', rfl, rfl⟩
  | rtpPutq packet mp => exact rtpPutq_spec holds packet allowed
  | rtpGetq packet timestamp => exact rtpGetq_spec holds packet timestamp
  | shrink maxrqsz =>
      obtain ⟨s', shrunk, holds'⟩ := shrink_spec maxrqsz [] holds enough
      refine ⟨_, s', _, shrunk, holds', rfl, ?_, ?_⟩
      · rw [List.nil_append, List.take_append_drop]
      · intro packet
        rw [Receive.shrink_eq, List.length_map, List.map_drop, List.nil_append, List.length_take,
          Nat.min_eq_left (Nat.sub_le _ _)]

end Holds

/-- Whatever was done to a queue since `qinit`: its pointers form one list in
both directions, `q_mcount` is its length, and each further call on messages
that are where they should be uses no null pointer and does what the model on
lists of packets does. -/
theorem queue_is_a_list {links : Links Addr} (apart : q.first ≠ q.last) {history : List Event}
    (run : Run (Calls q) (qinit q links) history s) :
    Holds q s (queued q s) ∧ ∀ op, Allowed q (queued q s) op →
      ∃ out s', queueExec q s op = some (out, s') ∧ Means (queued q s) out (queued q s') op := by
  have holds : ∃ items, Holds q s items := by
    refine run.invariant (fun _ s => ∃ items, Holds q s items) ⟨_, .qinit apart links⟩ ?_
    rintro _ s e s' - ⟨items, holds⟩ ⟨allowed, done⟩
    rw [holds.queued_eq] at allowed
    obtain ⟨out, s'', items', done', holds', -⟩ := holds.means allowed
    rw [done] at done'
    cases done'
    exact ⟨items', holds'⟩
  obtain ⟨items, holds⟩ := holds
  rw [holds.queued_eq]
  refine ⟨holds, ?_⟩
  intro op allowed
  obtain ⟨out, s', items', done, holds', means⟩ := holds.means allowed
  exact ⟨out, s', done, by rw [holds'.queued_eq]; exact means⟩

def unlinked : Links Addr := ⟨fun _ => none, fun _ => none⟩

def next (q : Ends) (s : QueueMem) (op : Op) : QueueMem :=
  ((queueExec q s op).map Prod.snd).getD s

/-- A queue into which the message numbered 5 has come before the one numbered 4. -/
def swapped : QueueMem :=
  let packet := fun mp : Addr => RtpMod.numbered (BitVec.ofNat 16 mp)
  next ⟨0, 1⟩ (next ⟨0, 1⟩ (qinit ⟨0, 1⟩ unlinked) (.rtpPutq packet 5)) (.rtpPutq packet 4)

theorem queue_is_a_list_swapped : queued ⟨0, 1⟩ swapped = [4, 5] ∧ Holds ⟨0, 1⟩ swapped [4, 5] := by
  let packet := fun mp : Addr => RtpMod.numbered (BitVec.ofNat 16 mp)
  have first : Calls ⟨0, 1⟩ (qinit ⟨0, 1⟩ unlinked) ⟨.rtpPutq packet 5, ⟨none, []⟩⟩
      (next ⟨0, 1⟩ (qinit ⟨0, 1⟩ unlinked) (.rtpPutq packet 5)) :=
    ⟨show 5 ∉ [0, 1] by decide, rfl⟩
  have second : Calls ⟨0, 1⟩ (next ⟨0, 1⟩ (qinit ⟨0, 1⟩ unlinked) (.rtpPutq packet 5))
      ⟨.rtpPutq packet 4, ⟨none, []⟩⟩ swapped := ⟨show 4 ∉ [0, 5, 1] by decide, rfl⟩
  have shown : queued ⟨0, 1⟩ swapped = [4, 5] := rfl
  have holds := (queue_is_a_list (by decide) ((Run.nil.snoc first).snoc second)).1
  rw [shown] at holds
  exact ⟨shown, holds⟩

end DvsServer.Ortp.Queue
