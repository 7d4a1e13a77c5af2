import DvsServer.Core.SessionOps
import DvsServer.Core.ThreadEnds

/-!
# Shutdown

A sub-session thread that sees the quit flag leaves its loop with its FIFO not
drained, while the video thread may be in the middle of a round.  If the video
thread then waits for room in that FIFO and another sub-session thread waits for
an element, nobody goes on.  This cannot happen as long as a thread leaves only
when its FIFO has room for what the video thread puts there before it reaches the
thread that waits.
-/

namespace DvsServer.Core.Pipeline

open DvsServer.Lib DvsServer.Com.RtpSend DvsServer.Core.Session DvsServer.Core.VideoEncode

/-! ## The property -/

/-- All threads but `main` have finished. -/
structure Finished (chs : Int) (p : State) : Prop where
  video : p.video.pc = .done
  readers : ∀ g, g.val < groups chs → p.readers g = .exited
  session : p.session = .done

/-- A thread other than `main` does not wait. -/
def CanMove (chs : Int) (capacity : Option Nat) (p : State) : Prop :=
  ∃ mover, mover ≠ .main ∧ pipelineStep chs capacity p mover ≠ .blocked

/-- The group whose FIFO the video thread puts to next. -/
def VideoPc.group : VideoPc → Option Nat
  | .put i => some (i / chsPerSession)
  | .flush i => some i
  | _ => none

/-- The video thread waits for room in the FIFO of a thread that has left its loop,
and another thread waits for an element. -/
def Stranded (chs : Int) (capacity : Option Nat) (p : State) : Prop :=
  pipelineStep chs capacity p .video = .blocked ∧ ∃ g h : Fin maxGroupNum,
    p.video.pc.group = some g.val ∧ p.readers g = .exited ∧ h.val < groups chs ∧
      p.readers h = .get ∧ pipelineStep chs capacity p (.reader h) = .blocked

def ShutsDown (chs : Int) (capacity : Option Nat) (p : State) : Prop :=
  p.quit = true → (Finished chs p ∨ CanMove chs capacity p) ∧ ¬ Stranded chs capacity p

/-! ## What the video thread still puts -/

/-- The most elements the video thread puts for group `g` before it next puts one
for group `h`. -/
def VideoPc.before : VideoPc → Nat → Nat → Nat
  | .head, g, h => if g < h then 1 else 0
  | .header, g, h | .mark, g, h | .frame, g, h => if g < h then chsPerSession else 0
  | .copy i, g, h | .patch i, g, h | .put i, g, h =>
      let left := min chsPerSession (chsPerSession * (g + 1) - i)
      if i < chsPerSession * (h + 1) then if g < h then left else 0
      else left + if g < h then 1 else 0
  | .flush i, g, h => if i ≤ g ∧ g < h then 1 else 0
  | .done, _, _ => 0

/-- The thread of a group waits, or is about to wait, for an element. -/
def State.Starves (p : State) (h : Fin maxGroupNum) : Prop :=
  p.readers h = .get ∧ (p.fifos h).queue = []

instance (p : State) (h : Fin maxGroupNum) : Decidable (p.Starves h) :=
  inferInstanceAs (Decidable (_ ∧ _))

/-- A thread leaves its loop on the quit flag only if the video thread reaches every
waiting thread without running out of room in the FIFO of the one that leaves. -/
def LeavesRoom (chs : Int) (n : Nat) (p : State) : Mover × Act → Prop
  | (_, .leaves g) => ∀ h, h.val < groups chs → p.Starves h →
      (p.fifos g).queue.length + p.video.pc.before g h ≤ n
  | _ => True

instance (chs : Int) (n : Nat) (p : State) : DecidablePred (LeavesRoom chs n p)
  | (_, .leaves g) => inferInstanceAs (Decidable (∀ h : Fin maxGroupNum, h.val < groups chs →
      p.Starves h → (p.fifos g).queue.length + p.video.pc.before g h ≤ n))
  | (_, .quiet) | (_, .writes _ _ _ _) | (_, .puts _ _ _) | (_, .putFails _) | (_, .gets _ _)
  | (_, .getFails _) | (_, .sends _ _ _) | (_, .closes _) | (_, .quits) => .isTrue trivial

theorem before_put_own {i h : Nat} (other : h ≠ i / chsPerSession) :
    (VideoPc.copy (i + 1)).before (i / chsPerSession) h + 1 ≤
      (VideoPc.put i).before (i / chsPerSession) h := by
  have width : chsPerSession = 4 := rfl
  rw [width] at other
  simp only [VideoPc.before, width]
  split <;> split <;> split <;> omega

theorem before_put_other {i h : Nat} (g : Nat) (other : h ≠ i / chsPerSession) :
    (VideoPc.copy (i + 1)).before g h ≤ (VideoPc.put i).before g h := by
  have width : chsPerSession = 4 := rfl
  rw [width] at other
  simp only [VideoPc.before, width]
  split <;> split <;> split <;> omega

theorem before_round_end {i g h : Nat} (ended : chsPerSession * (h + 1) ≤ i) :
    VideoPc.head.before g h ≤ (VideoPc.copy i).before g h := by
  simp only [VideoPc.before]
  rw [if_neg (Nat.not_lt.mpr ended)]
  exact Nat.le_add_left _ _

/-- While the video thread is at a put for a group, that put comes first. -/
theorem before_put_pos {i h : Nat} (other : h ≠ i / chsPerSession) :
    0 < (VideoPc.put i).before (i / chsPerSession) h :=
  Nat.lt_of_lt_of_le (Nat.succ_pos _) (before_put_own other)

theorem passed_before {pc : VideoPc} {g : Nat} (passed : pc.passed g = true) (h : Nat) :
    pc.before g h = 0 := by
  cases pc with
  | flush i =>
      have past : g < i := of_decide_eq_true passed
      exact if_neg fun both => absurd both.1 (Nat.not_le.mpr past)
  | done => rfl
  | _ => cases passed

/-! ## Room for the video thread -/

/-- The video thread reaches every waiting thread without running out of room in the
FIFO of one that has left its loop. -/
def RoomOk (chs : Int) (n : Nat) (p : State) : Prop :=
  ∀ g h : Fin maxGroupNum, p.readers g = .exited → h.val < groups chs → p.Starves h →
    (p.fifos g).queue.length + p.video.pc.before g h ≤ n

/-- The queues and the threads stay as they are, and the video thread comes nearer. -/
theorem RoomOk.goto {chs : Int} {n : Nat} {p after : State} (ok : RoomOk chs n p)
    (readers : after.readers = p.readers) (queue : ∀ g, (after.fifos g).queue = (p.fifos g).queue)
    (nearer : ∀ g h : Fin maxGroupNum, p.readers g = .exited → h.val < groups chs →
      after.video.pc.before g h ≤ p.video.pc.before g h) : RoomOk chs n after := by
  intro g h exited below starves
  rw [readers] at exited
  rw [State.Starves, readers, queue] at starves
  have room := ok g h exited below starves
  have step := nearer g h exited below
  rw [queue]
  omega

theorem RoomOk.put_step {chs : Int} {n : Nat} {p : State} {g : Fin maxGroupNum} {e : SessionElement}
    {pc : VideoPc} {done : Bool} {f : Fifo SessionElement} (ok : RoomOk chs n p) (join : JoinOk chs p)
    (target : PutsTo chs p g e pc) (puts : Fifo.Puts (some n) (p.fifos g) e done f) :
    RoomOk chs n { p.setFifo g f with video := ⟨pc, e⟩ } := by
  have nearer : ∀ k h : Nat, h ≠ g → pc.before k h ≤ p.video.pc.before k h := by
    intro k h other
    cases target with
    | frame at_ group =>
        rw [at_]
        exact before_put_other k fun same => other (same.trans (Int.ofNat.inj group))
    | @flush i _ at_ below group =>
        rw [at_]
        simp only [VideoPc.before]
        split <;> split <;> omega
  have own : ∀ h : Nat, h ≠ g → pc.before g h = 0 ∨ pc.before g h + 1 ≤ p.video.pc.before g h := by
    intro h other
    cases target with
    | @frame i _ at_ group =>
        have group' : i / chsPerSession = g := Int.ofNat.inj group
        rw [at_, ← group']
        exact .inr (before_put_own (group' ▸ other))
    | @flush i _ at_ below group =>
        have group' : i = g.val := Int.ofNat.inj group
        have past : (VideoPc.flush (i + 1)).passed g = true := decide_eq_true (by omega)
        exact .inl (passed_before past h)
  intro k h exited below starves
  cases puts with
  | closed closed =>
      have waits := starves.1
      have left := join.closed_exited closed below
      change p.readers h = .get at waits
      rw [left] at waits
      cases waits
  | put open_ room =>
      have queue_g : (p.setFifo g ⟨(p.fifos g).queue ++ [e], (p.fifos g).closed⟩).fifos g =
          ⟨(p.fifos g).queue ++ [e], (p.fifos g).closed⟩ := setFifo_self ..
      -- the thread whose FIFO got an element does not wait
      have other : h ≠ g := by
        intro same
        subst same
        have queue := starves.2
        dsimp only at queue
        rw [queue_g] at queue
        exact List.append_ne_nil_of_right_ne_nil _ (List.cons_ne_nil e []) queue
      have starves' : p.Starves h := by
        refine ⟨starves.1, ?_⟩
        have queue := starves.2
        dsimp only at queue
        rw [setFifo_ne other] at queue
        exact queue
      have differs : h.val ≠ g.val := fun same => other (Fin.ext same)
      have before := ok k h exited below starves'
      dsimp only
      by_cases same : k = g
      · subst same
        rw [queue_g, List.length_append, List.length_singleton]
        have has_room : (p.fifos k).queue.length < n := by
          simp only [Fifo.full, decide_eq_false_iff_not, Nat.not_le] at room
          exact room
        rcases own h differs with none_left | less
        · omega
        · omega
      · rw [setFifo_ne same]
        have less := nearer k h differs
        omega

theorem RoomOk.video_step {chs : Int} {n : Nat} {p after : State} {act : Act} (ok : RoomOk chs n p)
    (flush : FlushOk chs n p) (join : JoinOk chs p) (steps : VideoSteps chs (some n) p act after) :
    RoomOk chs n after := by
  -- the video thread goes on to a place from which it comes no later
  have goes : ∀ {after : State} {pc next : VideoPc}, p.video.pc = pc → after.video.pc = next →
      after.readers = p.readers → after.fifos = p.fifos →
      (∀ g h, h < groups chs → next.before g h ≤ pc.before g h) → RoomOk chs n after := by
    intro after pc next from_ to_ readers fifos nearer
    refine ok.goto readers (fun g => by rw [fifos]) fun g h _ below => ?_
    rw [from_, to_]
    exact nearer g h below
  cases steps with
  | leave pc quit =>
      refine goes pc rfl rfl rfl fun g h _ => ?_
      simp only [VideoPc.before]
      split <;> split <;> omega
  | enter pc quit =>
      -- no thread has left its loop yet
      intro g h exited
      have left := flush.left g exited
      rw [quit] at left
      cases left
  | store stores held stored =>
      cases stores with
      | fileEnd pc =>
          refine goes pc rfl rfl rfl fun g h _ => ?_
          simp only [VideoPc.before, chsPerSession]
          split <;> omega
      | header pc => exact goes pc rfl rfl rfl fun g h _ => Nat.le_refl _
      | mark pc => exact goes pc rfl rfl rfl fun g h _ => Nat.le_refl _
      | noFrame pc =>
          refine goes pc rfl rfl rfl fun g h _ => ?_
          simp only [VideoPc.before, chsPerSession]
          split <;> omega
      | frame pc =>
          refine goes pc rfl rfl rfl fun g h _ => ?_
          simp only [VideoPc.before, chsPerSession]
          split <;> split <;> omega
      | copy pc => exact goes pc rfl rfl rfl fun g h _ => Nat.le_refl _
      | patch pc => exact goes pc rfl rfl rfl fun g h _ => Nat.le_refl _
  | skip pc => exact goes pc rfl rfl rfl fun g h _ => Nat.le_refl _
  | @round i pc ended =>
      refine goes pc rfl rfl rfl fun g h below => before_round_end ?_
      exact round_end_past ended below
  | put target puts => exact ok.put_step join target puts
  | flushed pc ended => exact goes pc rfl rfl rfl fun g h _ => Nat.zero_le _

theorem RoomOk.reader_step {chs : Int} {n : Nat} {p after : State} {g : Fin maxGroupNum} {act : Act}
    (ok : RoomOk chs n p) (flush : FlushOk chs n p) (join : JoinOk chs p) (below : g.val < groups chs)
    (leaves : LeavesRoom chs n p (.reader g, act))
    (steps : ReaderSteps g p act after) : RoomOk chs n after := by
  -- a thread leaves its loop
  have exits : (∀ h, h.val < groups chs → p.Starves h →
      (p.fifos g).queue.length + p.video.pc.before g h ≤ n) → RoomOk chs n (p.setReader g .exited) := by
    intro room k h exited inside starves
    have starves' : p.Starves h := by
      refine ⟨?_, starves.2⟩
      by_cases same : h = g
      · have waits := starves.1
        rw [same, setReader_self] at waits
        cases waits
      · exact (setReader_ne same _).symm.trans starves.1
    by_cases same : k = g
    · subst same
      exact room h inside starves'
    · exact ok k h ((setReader_ne same _).symm.trans exited) inside starves'
  -- a thread goes on and does not wait
  have moves : ∀ {p' : State} {reader : Reader}, reader ≠ .exited → reader ≠ .get →
      (∀ h, h ≠ g → p'.fifos h = p.fifos h) → (p'.fifos g).queue.length ≤ (p.fifos g).queue.length →
      p'.readers = p.readers → p'.video = p.video → RoomOk chs n (p'.setReader g reader) := by
    intro p' reader running busy others shorter readers same_video k h exited inside starves
    have other : h ≠ g := by
      intro same
      have waits := starves.1
      rw [same, setReader_self] at waits
      exact busy waits
    have left : k ≠ g := by
      intro same
      rw [same, setReader_self] at exited
      exact running exited
    have starves' : p.Starves h := by
      refine ⟨?_, ?_⟩
      · rw [← readers]
        exact (setReader_ne other _).symm.trans starves.1
      · rw [← others h other]
        exact starves.2
    have exited' : p.readers k = .exited := by
      rw [← readers]
      exact (setReader_ne left _).symm.trans exited
    dsimp only [State.setReader]
    rw [others k left, same_video]
    exact ok k h exited' inside starves'
  cases steps with
  | leave at_ quit => exact exits leaves
  | enter at_ quit =>
      intro k h exited
      by_cases same : k = g
      · rw [same, setReader_self] at exited
        cases exited
      · have left := flush.left k ((setReader_ne same _).symm.trans exited)
        rw [quit] at left
        cases left
  | get at_ open_ queue =>
      refine moves nofun nofun (fun h other => setFifo_ne other _) ?_ rfl rfl
      rw [setFifo_self, queue]
      exact Nat.le_succ _
  | fail at_ closed =>
      have exited := join.closed_exited closed below
      rw [at_] at exited
      cases exited
  | flush at_ command =>
      refine exits fun h _ _ => ?_
      rw [passed_before (flush.passed g _ (.inl at_) command)]
      exact flush.bounded g
  | send at_ command => exact moves nofun nofun (fun _ _ => rfl) (Nat.le_refl _) rfl rfl

theorem RoomOk.step {chs : Int} {n : Nat} {p after : State} {event : Mover × Act}
    (ok : RoomOk chs n p) (flush : FlushOk chs n p) (join : JoinOk chs p)
    (leaves : LeavesRoom chs n p event) (steps : Steps chs (some n) p event after) :
    RoomOk chs n after := by
  cases steps with
  | video steps => exact ok.video_step flush join steps
  | reader below steps => exact ok.reader_step flush join below leaves steps
  | session steps =>
      cases steps with
      | @close i g at_ below group =>
          refine ok.goto rfl (fun h => ?_) fun _ _ _ _ => Nat.le_refl _
          by_cases same : h = g
          · subst same
            dsimp only
            rw [setFifo_self]
          · exact congrArg Fifo.queue (setFifo_ne same _)
      | _ => exact ok
  | main => exact ok

/-! ## Progress -/

structure Orderly (chs : Int) (n : Nat) (p : State) : Prop where
  video : VideoOk chs p
  join : JoinOk chs p
  flush : FlushOk chs n p
  room : RoomOk chs n p

/-- The video thread waits at a full open FIFO only. -/
theorem video_blocked {chs : Int} {capacity : Option Nat} {p : State}
    (blocked : videoStep chs capacity p = .blocked) :
    p.video.pc = .done ∨ ∃ g : Fin maxGroupNum, p.video.pc.group = some g.val ∧
      (∀ i, p.video.pc = .flush i → i < groups chs) ∧
        (p.fifos g).closed = false ∧ (p.fifos g).full capacity = true := by
  have waits : ∀ {g elt pc}, putStep capacity p g elt pc = .blocked →
      (p.fifos g).closed = false ∧ (p.fifos g).full capacity = true := by
    intro g elt pc blocked
    unfold putStep at blocked
    split at blocked
    · rename_i full
      exact Fifo.put_blocked.mp full
    · cases blocked
    · cases blocked
  unfold videoStep at blocked
  cases pc : p.video.pc with
  | head => rw [pc] at blocked; dsimp only at blocked; split at blocked <;> cases blocked
  | header => rw [pc] at blocked; dsimp only at blocked; split at blocked <;> cases blocked
  | mark => rw [pc] at blocked; dsimp only at blocked; split at blocked <;> cases blocked
  | frame =>
      rw [pc] at blocked
      dsimp only at blocked
      split at blocked
      · cases blocked
      · split at blocked <;> cases blocked
  | copy i =>
      rw [pc] at blocked
      dsimp only at blocked
      split at blocked
      · split at blocked
        · cases blocked
        · split at blocked
          · cases blocked
          · split at blocked
            · cases blocked
            · split at blocked <;> cases blocked
      · cases blocked
  | patch i =>
      rw [pc] at blocked
      dsimp only at blocked
      split at blocked
      · cases blocked
      · split at blocked <;> cases blocked
  | put i =>
      rw [pc] at blocked
      dsimp only at blocked
      split at blocked
      · cases blocked
      · rename_i g group
        refine .inr ⟨g, ?_, nofun, waits blocked⟩
        exact congrArg some (Int.ofNat.inj (index?_eq_some.mp group))
  | flush i =>
      rw [pc] at blocked
      dsimp only at blocked
      split at blocked
      · rename_i below
        split at blocked
        · cases blocked
        · rename_i g group
          refine .inr ⟨g, ?_, fun j same => ?_, waits blocked⟩
          · exact congrArg some (Int.ofNat.inj (index?_eq_some.mp group))
          · cases same
            exact below
      · cases blocked
  | done => exact .inl rfl

/-- A sub-session thread waits at an empty open FIFO, or has left its loop. -/
theorem reader_blocked {g : Fin maxGroupNum} {p : State} (blocked : readerStep g p = .blocked) :
    p.readers g = .exited ∨ p.readers g = .get ∧ (p.fifos g).closed = false ∧ (p.fifos g).queue = [] := by
  unfold readerStep at blocked
  cases at_ : p.readers g with
  | head => rw [at_] at blocked; dsimp only at blocked; split at blocked <;> cases blocked
  | get =>
      rw [at_] at blocked
      dsimp only at blocked
      split at blocked
      · rename_i empty
        exact .inr ⟨rfl, Fifo.get_blocked.mp empty⟩
      · cases blocked
      · cases blocked
      · cases blocked
  | got e => rw [at_] at blocked; dsimp only at blocked; split at blocked <;> cases blocked
  | exited => exact .inl rfl

/-- The session thread waits for a sub-session thread only. -/
theorem session_blocked {chs : Int} {p : State} (blocked : sessionStep chs p = .blocked) :
    p.session = .done ∨ ∃ g : Fin maxGroupNum, g.val < groups chs ∧ p.readers g ≠ .exited := by
  unfold sessionStep at blocked
  cases at_ : p.session with
  | join i =>
      rw [at_] at blocked
      dsimp only at blocked
      split at blocked
      · rename_i below
        split at blocked
        · cases blocked
        · rename_i g group
          split at blocked
          · cases blocked
          · rename_i running
            have group' : i = g.val := Int.ofNat.inj (index?_eq_some.mp group)
            exact .inr ⟨g, group' ▸ below, running⟩
      · cases blocked
  | clients => rw [at_] at blocked; cases blocked
  | close i =>
      rw [at_] at blocked
      dsimp only at blocked
      split at blocked
      · split at blocked <;> cases blocked
      · cases blocked
  | done => exact .inl rfl

/-- The video thread puts for groups that have a thread. -/
theorem Orderly.group_below {chs : Int} {n : Nat} {p : State} (orderly : Orderly chs n p)
    (aligned : chs % chsPerSession = 0) {g : Fin maxGroupNum} (group : p.video.pc.group = some g.val)
    (inside : ∀ i, p.video.pc = .flush i → i < groups chs) : g.val < groups chs := by
  cases pc : p.video.pc with
  | put i =>
      rw [pc] at group
      have group' : i / chsPerSession = g.val := Option.some.inj group
      rw [← group']
      exact channel_group aligned (orderly.video.inRound i (.inr pc))
  | flush i =>
      rw [pc] at group
      have group' : i = g.val := Option.some.inj group
      rw [← group']
      exact inside i pc
  | _ => rw [pc] at group; cases group

/-- At a put for a group the video thread comes to that group before any that waits. -/
theorem Orderly.group_first {chs : Int} {n : Nat} {p : State} (orderly : Orderly chs n p)
    {g h : Fin maxGroupNum} (group : p.video.pc.group = some g.val) (below : h.val < groups chs)
    (starves : p.Starves h) (other : h ≠ g) : 0 < p.video.pc.before g h := by
  have differs : h.val ≠ g.val := fun same => other (Fin.ext same)
  cases pc : p.video.pc with
  | put i =>
      rw [pc] at group
      have group' : i / chsPerSession = g.val := Option.some.inj group
      rw [← group']
      exact before_put_pos (group' ▸ differs)
  | flush i =>
      rw [pc] at group
      have group' : i = g.val := Option.some.inj group
      -- a thread whose flush element was put does not wait
      have ahead : ¬ h.val < i := by
        intro past
        have passed : p.video.pc.passed h = true := by
          rw [pc]
          exact decide_eq_true past
        obtain ⟨e, held, _⟩ := orderly.flush.waiting h below passed (by rw [starves.1]; exact nofun)
        rcases held with taken | queued
        · rw [starves.1] at taken
          cases taken
        · rw [starves.2] at queued
          cases queued
      simp only [VideoPc.before]
      rw [if_pos (by omega)]
      exact Nat.one_pos
  | _ => rw [pc] at group; cases group

/-- The video thread does not wait for a thread that has left its loop while another
one waits. -/
theorem Orderly.not_stranded {chs : Int} {n : Nat} {p : State} (orderly : Orderly chs n p)
    {g h : Fin maxGroupNum} (group : p.video.pc.group = some g.val)
    (full : (p.fifos g).full (some n) = true) (exited : p.readers g = .exited)
    (below : h.val < groups chs) (starves : p.Starves h) : False := by
  have other : h ≠ g := by
    intro same
    have waits := starves.1
    rw [same, exited] at waits
    cases waits
  have room := orderly.room g h exited below starves
  have first := orderly.group_first group below starves other
  have no_room : n ≤ (p.fifos g).queue.length := of_decide_eq_true full
  omega

theorem Orderly.shutsDown {chs : Int} {n : Nat} {p : State} (orderly : Orderly chs n p)
    (aligned : chs % chsPerSession = 0) (capacity : 1 ≤ n) : ShutsDown chs (some n) p := by
  intro quit
  constructor
  · by_contra stuck
    rw [not_or] at stuck
    obtain ⟨unfinished, waiting⟩ := stuck
    have all_wait : ∀ mover, mover ≠ .main → pipelineStep chs (some n) p mover = .blocked := by
      intro mover other
      by_contra moves
      exact waiting ⟨mover, other, moves⟩
    have video := video_blocked (all_wait .video Mover.noConfusion)
    have readers : ∀ g : Fin maxGroupNum, g.val < groups chs → p.readers g = .exited ∨ p.Starves g := by
      intro g below
      have blocked := all_wait (.reader g) Mover.noConfusion
      rw [pipelineStep, if_pos below] at blocked
      exact (reader_blocked blocked).imp_right fun waits => ⟨waits.1, waits.2.2⟩
    by_cases all_left : ∀ g : Fin maxGroupNum, g.val < groups chs → p.readers g = .exited
    · -- the session thread has closed the FIFOs, so the video thread does not wait
      rcases session_blocked (all_wait .session Mover.noConfusion) with done | ⟨g, below, running⟩
      · rcases video with finished | ⟨g, group, inside, opened, _⟩
        · exact unfinished ⟨finished, all_left, done⟩
        · have below : g.val < groups chs := orderly.group_below aligned group inside
          rw [orderly.join.closing g below (.inl done)] at opened
          cases opened
      · exact running (all_left g below)
    · push Not at all_left
      obtain ⟨h, below, running⟩ := all_left
      have starves := (readers h below).resolve_left running
      rcases video with finished | ⟨g, group, inside, opened, full⟩
      · obtain ⟨e, held, _⟩ := orderly.flush.waiting h below (by rw [finished]; rfl) running
        rcases held with taken | queued
        · rw [starves.1] at taken
          cases taken
        · rw [starves.2] at queued
          cases queued
      · rcases readers g (orderly.group_below aligned group inside) with exited | empty
        · exact orderly.not_stranded group full exited below starves
        · have no_room : n ≤ (p.fifos g).queue.length := of_decide_eq_true full
          rw [empty.2] at no_room
          exact absurd (Nat.le_trans capacity no_room) (Nat.not_succ_le_zero 0)
  · rintro ⟨blocked, g, h, group, exited, below, waits, empty⟩
    rw [pipelineStep, if_pos below] at empty
    rcases reader_blocked empty with left | ⟨_, _, queue⟩
    · rw [waits] at left
      cases left
    · rcases video_blocked blocked with finished | ⟨g', group', _, _, full⟩
      · rw [finished] at group
        cases group
      · have same : g' = g := Fin.ext (Option.some.inj (group'.symm.trans group))
        subst same
        exact orderly.not_stranded group full exited below ⟨waits, queue⟩

/-! ## Every run -/

theorem Started.orderly {chs : Int} {n : Nat} {p : State} (started : Started p) : Orderly chs n p := by
  have empty : ∀ g e, ¬ p.Holds g e := by
    rintro g e (taken | queued)
    · rw [started.readers] at taken
      cases taken
    · rw [started.fifos] at queued
      cases queued
  have running : ∀ g, p.readers g ≠ .exited := fun g exited => by
    rw [started.readers] at exited
    cases exited
  refine ⟨⟨fun i either => ?_, ?_, fun flushing => ?_⟩, started.joinOk,
    ⟨fun g e held => absurd held (empty g e), fun g _ past => ?_, fun g => ?_,
      fun g exited => absurd exited (running g)⟩, fun g h exited => absurd exited (running g)⟩
  · rw [started.video] at either
    rcases either with here | here <;> cases here
  · rw [started.video, started.command]
    rfl
  · rw [started.video] at flushing
    cases flushing
  · rw [started.video] at past
    cases past
  · rw [started.fifos]
    exact Nat.zero_le n

theorem Orderly.step {chs : Int} {n : Nat} {p after : State} {event : Mover × Act}
    (orderly : Orderly chs n p) (leaves : LeavesRoom chs n p event)
    (steps : Steps chs (some n) p event after) : Orderly chs n after :=
  ⟨orderly.video.step steps, orderly.join.step steps,
    orderly.flush.step orderly.video orderly.join steps,
    orderly.room.step orderly.flush orderly.join leaves steps⟩

theorem roomy_shutdowns_do_not_deadlock {chs : Int} {n : Nat} {start p : State} {history : History}
    (aligned : chs % chsPerSession = 0) (capacity : 1 ≤ n) (started : Started start)
    (run : Run (Guarded (LeavesRoom chs n) (ExecStep (pipelineExec chs (some n)))) start history p) :
    ShutsDown chs (some n) p := by
  have orderly : Orderly chs n p := by
    apply run.invariant fun _ p => Orderly chs n p
    · exact started.orderly
    · rintro history p event after _ orderly ⟨leaves, step⟩
      exact orderly.step leaves (pipelineExec_cases step)
  exact orderly.shutsDown aligned capacity

/-- Eight channels in two groups, and a file of one frame. -/
def eightChannels : State := initial 8 (shortFrame 7)

/-- One thread waits and one leaves at once; there is room for the flush element. -/
theorem roomy_shutdowns_do_not_deadlock_waiting : ∃ result,
    execAll (checked (LeavesRoom 8 1) (pipelineExec 8 (some 1)))
      ([.reader 1, .main, .reader 0] ++ List.replicate 4 .video)
        ([], eightChannels) = some result ∧ ShutsDown 8 (some 1) result.2 := by
  obtain ⟨result, executed⟩ := Option.isSome_iff_exists.mp
    (show (execAll (checked (LeavesRoom 8 1) (pipelineExec 8 (some 1)))
      ([.reader 1, .main, .reader 0] ++ List.replicate 4 .video)
        ([], eightChannels)).isSome = true by decide)
  exact ⟨result, executed, roomy_shutdowns_do_not_deadlock (by decide) (Nat.le_refl 1)
    (initial_started ..) ((execAll_run .nil executed).mono ExecStep.guarded)⟩

/-- The quit flag is set, the video thread has not finished, and all threads wait. -/
def deadlocked (chs : Int) (capacity : Option Nat) (p : State) : Bool :=
  p.quit && p.video.pc != .done && (videoStep chs capacity p).isBlocked &&
    (sessionStep chs p).isBlocked && decide (∀ g, (readerStep g p).isBlocked || !decide (g.val < groups chs))

theorem deadlocked_not_shutsDown {chs : Int} {capacity : Option Nat} {p : State}
    (stuck : deadlocked chs capacity p = true) : ¬ ShutsDown chs capacity p := by
  intro shutsDown
  simp only [deadlocked, Bool.and_eq_true, bne_iff_ne, Outcome.isBlocked_iff, decide_eq_true_eq,
    Bool.or_eq_true, Bool.not_eq_true', decide_eq_false_iff_not] at stuck
  obtain ⟨⟨⟨⟨quit, unfinished⟩, video⟩, session⟩, readers⟩ := stuck
  rcases (shutsDown quit).1 with finished | ⟨mover, other, moves⟩
  · exact unfinished finished.video
  · cases mover with
    | video => exact moves video
    | session => exact moves session
    | main => exact other rfl
    | reader g =>
        rw [pipelineStep] at moves
        split at moves
        · rename_i below
          exact moves ((readers g).resolve_right fun ended => ended below)
        · exact moves rfl

/-- The thread of the first group leaves with its FIFO full while the video thread is
in the middle of a round and the other thread waits. -/
theorem shutdowns_deadlock : ¬ ∀ (chs : Int) (n : Nat) (start p : State) (history : History),
    0 < chs → chs ≤ maxVideoChannel → chs % chsPerSession = 0 → 2 ≤ groups chs → 1 ≤ n →
      Started start → Run (ExecStep (pipelineExec chs (some n))) start history p →
        ShutsDown chs (some n) p := by
  intro claim
  have stuck : ((execAll (pipelineExec 8 (some 1))
      ([.reader 1] ++ List.replicate 9 .video ++ [.main, .reader 0, .session])
        ([], eightChannels)).any fun (_, p) => deadlocked 8 (some 1) p) = true := by
    decide
  obtain ⟨⟨history, p⟩, ran, stuck⟩ := (Option.any_eq_true _ _).mp stuck
  exact deadlocked_not_shutsDown stuck (claim 8 1 eightChannels p history (by decide) (by decide)
    (by decide) (by decide) (Nat.le_refl 1) (initial_started ..) (execAll_run .nil ran))

end DvsServer.Core.Pipeline
