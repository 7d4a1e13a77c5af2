import DvsServer.Ortp.Rtp
import Mathlib.Data.List.Sort
import Mathlib.Data.List.Chain

/-!
# The receive queue (`utils/ortp/src/rtpmod.c`)

`rtp_putq` keeps the queue in the order of sequence numbers and frees a packet
whose number is there already; `rtp_getq` takes the packet for a timestamp and
frees the older ones.  The queue is listed from its first message to its last.
-/

namespace DvsServer.Ortp.RtpMod

open DvsServer.Lib

/-- The loop of `rtp_putq`: `above` is what is still to be looked at, its last
message first, and `below` what has been passed.  `none` when the packet is a
duplicate. -/
def putqLoop (mp : Packet) : List Packet → List Packet → Option (List Packet)
  | [], below => some (mp :: below)
  | tmp :: above, below =>
      if mp.seq = tmp.seq then none
      else if rtpSeqIsGreater mp.seq tmp.seq then some (above.reverse ++ tmp :: mp :: below)
      else putqLoop mp above (tmp :: below)

def rtpPutq (q : List Packet) (mp : Packet) : Option (List Packet) := putqLoop mp q.reverse []

/-- What `rtp_getq` leaves behind: the packet it returns, the queue, and
`*rejected`. -/
structure Getq where
  ret : Option Packet
  queue : List Packet
  rejected : Nat

/-- The loop of `rtp_getq` with the packet found so far. -/
def getqLoop (timestamp : BitVec 32) : Option Packet → List Packet → Nat → Getq
  | ret, [], rejected => ⟨ret, [], rejected⟩
  | none, tmp :: rest, rejected =>
      if rtpTimestampIsNewerThan timestamp tmp.ts then getqLoop timestamp (some tmp) rest rejected
      else ⟨none, tmp :: rest, rejected⟩
  | some found, tmp :: rest, rejected =>
      if rtpTimestampIsNewerThan timestamp tmp.ts then
        -- two packets with the same timestamp: the first one is returned
        if tmp.ts = found.ts then ⟨some found, tmp :: rest, rejected⟩
        else getqLoop timestamp (some tmp) rest (rejected + 1)
      else ⟨some found, tmp :: rest, rejected⟩

def rtpGetq (q : List Packet) (timestamp : BitVec 32) : Getq :=
  match q with
  | [] => ⟨none, [], 0⟩
  | oldest :: rest =>
      if rtpTimestampIsStrictlyNewerThan oldest.ts timestamp then ⟨none, oldest :: rest, 0⟩
      else getqLoop timestamp none (oldest :: rest) 0

/-! ## Putting -/

/-- What `rtp_putq` does: the packet goes in behind the last message it is
greater than, or it is freed as a duplicate.  Every message that was passed has
another number and is not smaller. -/
inductive Puts (q : List Packet) (mp : Packet) : Option (List Packet) → Prop where
  | inserted {above below : List Packet} (split : q = above ++ below)
      (greater : ∀ tmp ∈ above.getLast?, rtpSeqIsGreater mp.seq tmp.seq = true)
      (other : ∀ tmp ∈ above.getLast?, mp.seq ≠ tmp.seq)
      (passed : ∀ tmp ∈ below, mp.seq ≠ tmp.seq ∧ rtpSeqIsGreater mp.seq tmp.seq = false) :
      Puts q mp (some (above ++ mp :: below))
  | duplicate {tmp : Packet} (queued : tmp ∈ q) (same : mp.seq = tmp.seq) : Puts q mp none

theorem putqLoop_puts (mp : Packet) (above below : List Packet)
    (passed : ∀ tmp ∈ below, mp.seq ≠ tmp.seq ∧ rtpSeqIsGreater mp.seq tmp.seq = false) :
    Puts (above.reverse ++ below) mp (putqLoop mp above below) := by
  induction above generalizing below with
  | nil =>
      rw [putqLoop]
      have nothing : [].reverse ++ below = [] ++ below := rfl
      apply Puts.inserted nothing ?_ ?_ passed
      · simp
      · simp
  | cons tmp above ih =>
      rw [putqLoop]
      split
      · rename_i same
        exact .duplicate (by simp) same
      · rename_i differs
        split
        · rename_i greater
          have regroup : above.reverse ++ tmp :: mp :: below =
              (above.reverse ++ [tmp]) ++ mp :: below := by simp
          rw [regroup]
          apply Puts.inserted (by simp) ?_ ?_ passed
          · simpa using greater
          · simpa using differs
        · rename_i smaller
          have more : ∀ other ∈ tmp :: below,
              mp.seq ≠ other.seq ∧ rtpSeqIsGreater mp.seq other.seq = false := by
            intro other inside
            rcases List.mem_cons.mp inside with rfl | inside
            · exact ⟨differs, Bool.not_eq_true _ ▸ smaller⟩
            · exact passed other inside
          have next := ih (tmp :: below) more
          simpa using next

theorem rtpPutq_puts (q : List Packet) (mp : Packet) : Puts q mp (rtpPutq q mp) := by
  have loop := putqLoop_puts mp q.reverse [] (by simp)
  simpa [rtpPutq] using loop

/-! ### Sequence numbers in a window -/

/-- All numbers are less than half the circle ahead of `base`. -/
def Windowed (base : BitVec 16) (q : List Packet) : Prop :=
  ∀ p ∈ q, SerialNumber.InWindow base p.seq

instance (base : BitVec 16) (q : List Packet) : Decidable (Windowed base q) :=
  inferInstanceAs (Decidable (∀ p ∈ q, SerialNumber.InWindow base p.seq))

/-- The place of a packet in the window. -/
def place (base : BitVec 16) (p : Packet) : Nat := SerialNumber.distance base p.seq

def Before (base : BitVec 16) (p q : Packet) : Prop := place base p < place base q

instance (base : BitVec 16) (p q : Packet) : Decidable (Before base p q) :=
  inferInstanceAs (Decidable (_ < _))

instance (base : BitVec 16) : Std.Irrefl (Before base) := ⟨fun _ => Nat.lt_irrefl _⟩

instance (base : BitVec 16) : Std.Antisymm (Before base) :=
  ⟨fun _ _ first second => absurd second (Nat.lt_asymm first)⟩

theorem place_injective (base : BitVec 16) {p q : Packet} (same : place base p = place base q) :
    p.seq = q.seq := SerialNumber.distance_injective same

/-- In a window the passed messages lie strictly behind the packet. -/
theorem before_of_passed {base : BitVec 16} {mp tmp : Packet}
    (hmp : SerialNumber.InWindow base mp.seq) (htmp : SerialNumber.InWindow base tmp.seq)
    (passed : rtpSeqIsGreater mp.seq tmp.seq = false) : Before base mp tmp := by
  have notNewer : ¬ rtpSeqIsGreater mp.seq tmp.seq = true := by simp [passed]
  unfold rtpSeqIsGreater at notNewer
  rw [SerialNumber.newer_iff hmp htmp] at notNewer
  exact Nat.lt_of_not_le notNewer

theorem before_of_greater {base : BitVec 16} {mp tmp : Packet}
    (hmp : SerialNumber.InWindow base mp.seq) (htmp : SerialNumber.InWindow base tmp.seq)
    (greater : rtpSeqIsGreater mp.seq tmp.seq = true) (other : mp.seq ≠ tmp.seq) :
    Before base tmp mp := by
  unfold rtpSeqIsGreater at greater
  rw [SerialNumber.newer_iff hmp htmp] at greater
  apply Nat.lt_of_le_of_ne greater
  intro same
  exact other (place_injective base same.symm)

/-- Inside a window the queue stays strictly sorted. -/
theorem sorted_putq {base : BitVec 16} {q q' : List Packet} {mp : Packet}
    (windowed : Windowed base q) (sorted : q.Pairwise (Before base))
    (hmp : SerialNumber.InWindow base mp.seq) (put : rtpPutq q mp = some q') :
    q'.Pairwise (Before base) := by
  have puts := rtpPutq_puts q mp
  rw [put] at puts
  cases puts with
  | @inserted above below split greater other passed =>
      rw [split] at sorted windowed
      obtain ⟨first, second, across⟩ := List.pairwise_append.mp sorted
      have behind : ∀ tmp ∈ below, Before base mp tmp := by
        intro tmp inside
        exact before_of_passed hmp (windowed tmp (List.mem_append_right _ inside))
          (passed tmp inside).2
      have ahead : ∀ tmp ∈ above, Before base tmp mp := by
        intro tmp inside
        rcases List.eq_nil_or_concat above with empty | ⟨init, last, whole⟩
        · rw [empty] at inside
          cases inside
        · rw [List.concat_eq_append] at whole
          have isLast : last ∈ above.getLast? := by simp [whole]
          have lastInside : last ∈ above := List.mem_of_getLast? isLast
          have lastBefore : Before base last mp :=
            before_of_greater hmp (windowed last (List.mem_append_left _ lastInside))
              (greater last isLast) (other last isLast)
          rw [whole] at inside first
          rcases List.mem_append.mp inside with inInit | inLast
          · have step : Before base tmp last :=
              (List.pairwise_append.mp first).2.2 tmp inInit last (by simp)
            exact Nat.lt_trans step lastBefore
          · rw [List.mem_singleton.mp inLast]
            exact lastBefore
      apply List.pairwise_append.mpr
      refine ⟨first, List.pairwise_cons.mpr ⟨behind, second⟩, ?_⟩
      intro tmp inAbove later inLater
      rcases List.mem_cons.mp inLater with rfl | inBelow
      · exact ahead tmp inAbove
      · exact across tmp inAbove later inBelow

/-- The packets in the queue after a put. -/
theorem mem_putq {q q' : List Packet} {mp p : Packet} (put : rtpPutq q mp = some q') :
    p ∈ q' ↔ p = mp ∨ p ∈ q := by
  have puts := rtpPutq_puts q mp
  rw [put] at puts
  cases puts with
  | @inserted above below split greater other passed =>
      rw [split]
      simp only [List.mem_append, List.mem_cons]
      tauto

/-! ## Getting -/

/-- What `rtp_getq` does: it frees the messages in front of the one it returns,
all of them due, and stops at a message that is not due or has the timestamp
just found; it takes nothing when the first message is not due. -/
inductive Gets (q : List Packet) (timestamp : BitVec 32) : Getq → Prop where
  | found {skipped rest : List Packet} {found : Packet} (split : q = skipped ++ found :: rest)
      (due : ∀ p ∈ skipped ++ [found], rtpTimestampIsNewerThan timestamp p.ts = true)
      (stops : ∀ p ∈ rest.head?,
        p.ts = found.ts ∨ rtpTimestampIsNewerThan timestamp p.ts = false) :
      Gets q timestamp ⟨some found, rest, skipped.length⟩
  | nothing (early : ∀ oldest ∈ q.head?, rtpTimestampIsNewerThan timestamp oldest.ts = false) :
      Gets q timestamp ⟨none, q, 0⟩

theorem getqLoop_gets {timestamp : BitVec 32} (start : Packet) (rest : List Packet)
    (rejected : Nat) (due : rtpTimestampIsNewerThan timestamp start.ts = true) :
    ∃ skipped found rest', start :: rest = skipped ++ found :: rest' ∧
      (∀ p ∈ skipped ++ [found], rtpTimestampIsNewerThan timestamp p.ts = true) ∧
      (∀ p ∈ rest'.head?, p.ts = found.ts ∨ rtpTimestampIsNewerThan timestamp p.ts = false) ∧
      getqLoop timestamp (some start) rest rejected =
        ⟨some found, rest', rejected + skipped.length⟩ := by
  induction rest generalizing start rejected with
  | nil => exact ⟨[], start, [], rfl, by simpa using due, by simp, rfl⟩
  | cons tmp rest ih =>
      by_cases isDue : rtpTimestampIsNewerThan timestamp tmp.ts = true
      · by_cases same : tmp.ts = start.ts
        · refine ⟨[], start, tmp :: rest, rfl, by simpa using due, ?_, ?_⟩
          · simp [same]
          · simp [getqLoop, same]
        · obtain ⟨skipped, found, rest', split, dues, stops, loop⟩ := ih tmp (rejected + 1) isDue
          refine ⟨start :: skipped, found, rest', by rw [split]; rfl, ?_, stops, ?_⟩
          · intro p inside
            rcases List.mem_cons.mp inside with rfl | inside
            · exact due
            · exact dues p inside
          · simp only [getqLoop, isDue, same, if_true, if_false, loop, List.length_cons]
            congr 1
            omega
      · refine ⟨[], start, tmp :: rest, rfl, by simpa using due, ?_, ?_⟩
        · simp [isDue]
        · simp [getqLoop, isDue]

theorem rtpGetq_gets (q : List Packet) (timestamp : BitVec 32) :
    Gets q timestamp (rtpGetq q timestamp) := by
  cases q with
  | nil => exact .nothing (by simp)
  | cons oldest rest =>
      unfold rtpGetq
      dsimp only
      split
      · rename_i strictly
        apply Gets.nothing
        intro first isFirst
        simp only [List.head?_cons, Option.mem_some_iff] at isFirst
        rw [← isFirst]
        unfold rtpTimestampIsStrictlyNewerThan at strictly
        obtain ⟨ahead, differs⟩ := Bool.and_eq_true _ _ ▸ strictly
        by_contra due
        rw [Bool.not_eq_false] at due
        have same := SerialNumber.newer_antisymm ahead due
        simp [same] at differs
      · rename_i notStrictly
        by_cases due : rtpTimestampIsNewerThan timestamp oldest.ts = true
        · obtain ⟨skipped, found, rest', split, dues, stops, loop⟩ :=
            getqLoop_gets oldest rest 0 due
          rw [getqLoop, if_pos due, loop, Nat.zero_add]
          exact .found split dues stops
        · rw [getqLoop, if_neg due]
          apply Gets.nothing
          simpa using due

/-! ### A stream that arrives in any order -/

/-- The queue after `rtp_putq`, whether it kept the packet or freed it. -/
def enqueue (q : List Packet) (mp : Packet) : List Packet := (rtpPutq q mp).getD q

def enqueueAll (arrivals : List Packet) : List Packet := arrivals.foldl enqueue []

/-- In a strictly sorted list a sequence number names one packet. -/
theorem eq_of_seq {base : BitVec 16} {sent : List Packet} (sorted : sent.Pairwise (Before base))
    {p q : Packet} (hp : p ∈ sent) (hq : q ∈ sent) (same : p.seq = q.seq) : p = q := by
  have equal : place base p = place base q := by unfold place; rw [same]
  induction sorted with
  | nil => cases hp
  | @cons first rest ahead _ ih =>
      rcases List.mem_cons.mp hp with pFirst | hp
      · rcases List.mem_cons.mp hq with qFirst | hq
        · rw [pFirst, qFirst]
        · have lt : place base first < place base q := ahead q hq
          rw [pFirst] at equal
          omega
      · rcases List.mem_cons.mp hq with qFirst | hq
        · have lt : place base first < place base p := ahead p hp
          rw [qFirst] at equal
          omega
        · exact ih hp hq

/-- One arrival: the queue stays sorted and holds one packet of the stream more. -/
theorem enqueue_of_sent {base : BitVec 16} {sent q : List Packet} {mp : Packet}
    (windowed : Windowed base sent) (stream : sent.Pairwise (Before base)) (isSent : mp ∈ sent)
    (within : ∀ p ∈ q, p ∈ sent) (sorted : q.Pairwise (Before base)) :
    (enqueue q mp).Pairwise (Before base) ∧ ∀ p, p ∈ enqueue q mp ↔ p = mp ∨ p ∈ q := by
  have queued : Windowed base q := fun p inside => windowed p (within p inside)
  cases put : rtpPutq q mp with
  | some q' =>
      rw [enqueue, put]
      exact ⟨sorted_putq queued sorted (windowed mp isSent) put, fun p => mem_putq put⟩
  | none =>
      have puts := rtpPutq_puts q mp
      rw [put] at puts
      cases puts with
      | @duplicate tmp inQueue same =>
          have again : mp = tmp := eq_of_seq stream isSent (within tmp inQueue) same
          rw [enqueue, put]
          refine ⟨sorted, fun p => ⟨.inr, ?_⟩⟩
          rintro (rfl | inside)
          · rw [again]
            exact inQueue
          · exact inside

/-- Whatever part of a stream arrives, in whatever order and however often,
the queue holds the packets that arrived, once each and in the order in which
they were sent. -/
theorem queue_restores_order {base : BitVec 16} {sent arrivals : List Packet}
    (windowed : Windowed base sent) (stream : sent.Pairwise (Before base))
    (arrived : ∀ p ∈ arrivals, p ∈ sent) :
    enqueueAll arrivals = sent.filter (fun p => decide (p ∈ arrivals)) := by
  have collected : ∀ (rest q : List Packet), (∀ p ∈ rest, p ∈ sent) → (∀ p ∈ q, p ∈ sent) →
      q.Pairwise (Before base) →
      (rest.foldl enqueue q).Pairwise (Before base) ∧
        ∀ p, p ∈ rest.foldl enqueue q ↔ p ∈ rest ∨ p ∈ q := by
    intro rest
    induction rest with
    | nil =>
        intro q _ _ sorted
        exact ⟨sorted, fun p => by simp⟩
    | cons mp rest ih =>
        intro q remaining within sorted
        obtain ⟨sorted', members⟩ := enqueue_of_sent windowed stream
          (remaining mp List.mem_cons_self) within sorted
        have within' : ∀ p ∈ enqueue q mp, p ∈ sent := by
          intro p inside
          rcases (members p).mp inside with rfl | inside
          · exact remaining p List.mem_cons_self
          · exact within p inside
        obtain ⟨final, all⟩ := ih (enqueue q mp)
          (fun p inside => remaining p (List.mem_cons_of_mem _ inside)) within' sorted'
        refine ⟨final, fun p => ?_⟩
        rw [List.foldl_cons, all, members, List.mem_cons]
        tauto
  obtain ⟨sorted, members⟩ := collected arrivals [] arrived (by simp) .nil
  apply List.Pairwise.eq_of_mem_iff sorted (stream.filter _)
  intro p
  rw [members, List.mem_filter]
  simp only [List.not_mem_nil, or_false, decide_eq_true_eq]
  exact ⟨fun inside => ⟨arrived p inside, inside⟩, fun both => both.2⟩

/-- A packet with sequence number `seq` and nothing else of interest. -/
def numbered (seq : BitVec 16) : Packet :=
  ⟨⟨0, 0, 0, 2, 34, 0, seq, 0, 0, []⟩, []⟩

/-- Four packets around the end of the circle, one lost, one twice. -/
theorem queue_restores_order_wrap :
    enqueueAll [numbered 0, numbered 65534, numbered 1, numbered 65534, numbered 0] =
      [numbered 65534, numbered 65535, numbered 0, numbered 1].filter
        (fun p => decide (p ∈ [numbered 0, numbered 65534, numbered 1, numbered 65534, numbered 0])) := by
  have windowed : Windowed 65530 [numbered 65534, numbered 65535, numbered 0, numbered 1] := by
    decide
  apply queue_restores_order windowed
  · decide
  · decide

end DvsServer.Ortp.RtpMod
